import WifiAudio.Audio.Copy
import WifiAudio.Audio.Reader

/-!
# The threads of the server

`_server` of `server.cpp`: the thread that fills the blocks of samples, the thread that encodes and
sends them, and the thread that runs the RTSP server. When the RTSP server is over, the last one sets
`dead`, which the other two look at at the head of their loops, waits for them and deletes what they
used. The clients' threads use the engine too; when the socket server ends them is not known here.
-/

namespace WifiAudio

namespace ServerThreads

/-- Where the encoder thread is: at the head of its loop, in `reader->read`, at work on a block, or
done. -/
inductive Encoder
  | head
  | reading
  | working
  | done
  deriving DecidableEq, Repr

/-- What the thread of the server does next. -/
inductive Main
  | serve
  | joinEncoder
  | joinReader
  | deleteReader
  | deleteEngine
  | deleteCodec
  | done
  deriving DecidableEq, Repr

end ServerThreads

/-- The three threads with what they share; `deleted` are the blocks that `~RTP_Engine` has deleted. -/
structure ServerThreads where
  main : ServerThreads.Main
  dead : Bool
  reader : Reader
  encoder : ServerThreads.Encoder
  copy : AudioCopy
  deleted : List ℕ

namespace ServerThreads

/-- A step of the reader thread (`acquire`, `read`, `put`, `halt`), of the encoder thread (`loop`, `get`
and the calls of its second half), of the thread of the server (`main`), or of a client's thread. -/
inductive Action
  | acquire
  | read (bytes : Bytes)
  | put
  | halt
  | loop
  | get
  | copy (act : AudioCopy.Action)
  | main

/-- A step of one of the three threads of the server. -/
def Action.own : Action → Bool
  | .copy (.newClient _) => false
  | .copy (.play _) => false
  | .copy (.remove _) => false
  | _ => true

def numBuffers : ℕ := 4

/-- The threads as they are started. -/
def new (codec : AudioCodec) (rtp rtcp : ℤ) (maxRead : ℕ) (memory : ℕ → ℕ → UInt8) :
    Except Fault ServerThreads := do
  let engine := Engine.new codec rtp rtcp numBuffers
  return {
    main := .serve
    dead := false
    reader := .new (← engine.rxBytes) maxRead 2 memory
    encoder := .head
    copy := .new engine
    deleted := [] }

/-- The encoder thread after a step of its second half: when that is through, or the samples were
dropped, it is back at the head of its loop. -/
def worked (t : ServerThreads) (copy : AudioCopy) : ServerThreads :=
  if copy.loop = .head then
    { t with reader := { t.reader with consumer := .waiting }, encoder := .head, copy := copy }
  else { t with copy := copy }

def work (t : ServerThreads) (act : AudioCopy.Action) : Option (Except Fault ServerThreads) :=
  if t.encoder = .working then
    (t.copy.exec act).map fun r => do return t.worked (← r)
  else none

/-- The engine is there. -/
def hasEngine (t : ServerThreads) : Bool := t.main ≠ .deleteCodec ∧ t.main ≠ .done

/-- The next step of the thread of the server. -/
def exit (t : ServerThreads) : Option (Except Fault ServerThreads) :=
  match t.main with
  | .serve => some (.ok { t with main := .joinEncoder, dead := true })
  | .joinEncoder => if t.encoder = .done then some (.ok { t with main := .joinReader }) else none
  | .joinReader =>
      if t.reader.producer = .done then some (.ok { t with main := .deleteReader }) else none
  | .deleteReader => some (.ok { t with main := .deleteEngine })
  | .deleteEngine => some do
      let (deleted, engine) ← t.copy.engine.deleteBlocks t.copy.engine.pool.length
      return { t with main := .deleteCodec, copy := { t.copy with engine := engine }, deleted := deleted }
  | .deleteCodec => some (.ok { t with main := .done })
  | .done => none

/-- One step; a fault when it goes wrong, nothing when it is not its turn. -/
def exec (t : ServerThreads) : Action → Option (Except Fault ServerThreads)
  | .acquire =>
      if t.dead then none else (t.reader.exec .acquire).map fun r => .ok { t with reader := r }
  | .read bytes => (t.reader.exec (.read bytes)).map fun r => .ok { t with reader := r }
  | .put => (t.reader.exec .put).map fun r => .ok { t with reader := r }
  | .halt => if t.dead then (t.reader.exec .halt).map fun r => .ok { t with reader := r } else none
  | .loop =>
      if t.encoder = .head then some (.ok { t with encoder := if t.dead then .done else .reading })
      else none
  | .get =>
      if t.encoder = .reading then
        (t.reader.exec .get).map fun r => .ok { t with reader := r, encoder := .working }
      else none
  | .copy (.encode result out) =>
      match t.reader.consumer with
      | .holding block =>
          t.work (.encode result (t.copy.engine.codec.encoded (t.reader.data block.data) out))
      | .waiting => none
  | .copy .samples => t.work .samples
  | .copy (.send results) => t.work (.send results)
  | .copy act =>
      if t.hasEngine then (t.copy.exec act).map fun r => do return { t with copy := ← r }
      -- a client's thread uses an engine that is deleted
      else some (.error .outOfBounds)
  | .main => t.exit

/-- The step as a partial function. -/
def next (t : ServerThreads) (a : Action) : Option ServerThreads := (t.exec a).bind Except.toOption

def Step (t : ServerThreads) (a : Action) (t' : ServerThreads) : Prop := t.exec a = some (.ok t')

end ServerThreads

end WifiAudio
