import WifiAudio.Proof.Rtp.Stream
import WifiAudio.Proof.Server.Deletion

/-!
# The threads as users of the engine

Whatever the threads of the server and of its clients do, the engine sees a sequence of its own
operations, so all that holds of these holds in the running server.
-/

namespace WifiAudio

open Except Transition

namespace Engine

variable {e e' : Engine}

theorem step_of_ok {op : Op} {r : Except Fault Engine} (hexec : e.exec op = r.toOption)
    (hr : r = .ok e') : Step e op e' := by
  rw [Step, hexec, hr]
  rfl

theorem writeAudio_found {b : ℕ} {bytes : Bytes} (h : e.writeAudio b bytes = .ok e') :
    ∃ block, e.pool[b]? = some block ∧ bytes.length ≤ block.maxPayload ∧ e' = { e with
      pool := e.pool.set b { block with audio := bytes ++ block.audio.drop bytes.length } } := by
  unfold writeAudio at h
  cases hblock : e.pool[b]? with
  | none => simp [hblock] at h
  | some block =>
      by_cases hbytes : block.maxPayload < bytes.length
      · simp [hblock, hbytes] at h
      · simp only [hblock, hbytes, if_false] at h
        exact ⟨block, rfl, not_lt.1 hbytes, (Except.ok.inj h).symm⟩

theorem ok_of_toOption {α : Type} {x : Except Fault α} {a : α} (h : x.toOption = some a) : x = .ok a := by
  cases x with
  | error f => cases h
  | ok b => exact congrArg Except.ok (Option.some.inj h)

theorem codec_of_step {op : Op} (hstep : Step e op e') : e'.codec = e.codec := by
  cases op with
  | newClient ip port connected =>
      obtain rfl := Option.some.inj hstep
      rfl
  | play client =>
      obtain rfl := Option.some.inj hstep
      cases client <;> rfl
  | remove client =>
      obtain ⟨playing, rfl⟩ := remove_eq_ok (ok_of_toOption hstep)
      rfl
  | getFree =>
      obtain rfl := Option.some.inj hstep
      unfold getFree
      split <;> rfl
  | putFree b =>
      obtain rfl := Option.some.inj hstep
      rfl
  | writeAudio b bytes =>
      obtain ⟨block, -, -, rfl⟩ := writeAudio_found (ok_of_toOption hstep)
      rfl
  | send b bytes samples results =>
      obtain ⟨block, visited, -, -, -, rfl⟩ := send_eq_ok.1 (send_of_step hstep)
      rfl

theorem codec_of_run {ops : List Op} (hrun : Run Step e ops e') : e'.codec = e.codec :=
  hrun.invariant (I := fun e₁ => e₁.codec = e.codec) (fun _ _ _ h hstep => (codec_of_step hstep).trans h) rfl

theorem deleteBlocks_run {fuel : ℕ} {deleted : List ℕ} (hdelete : e.deleteBlocks fuel = .ok (deleted, e')) :
    Run Step e (List.replicate deleted.length .getFree) e' := by
  induction fuel generalizing e deleted with
  | zero =>
      unfold deleteBlocks at hdelete
      split at hdelete
      case h_1 e₁ hget =>
        obtain ⟨rfl, rfl⟩ := Prod.mk.inj (Except.ok.inj hdelete)
        unfold getFree at hget
        split at hget
        · cases hget
        · obtain ⟨-, rfl⟩ := Prod.mk.inj hget
          exact .nil e
      case h_2 => cases hdelete
  | succ fuel ih =>
      unfold deleteBlocks at hdelete
      split at hdelete
      case h_1 e₁ hget =>
        obtain ⟨rfl, rfl⟩ := Prod.mk.inj (Except.ok.inj hdelete)
        unfold getFree at hget
        split at hget
        · cases hget
        · obtain ⟨-, rfl⟩ := Prod.mk.inj hget
          exact .nil e
      case h_2 b e₁ hget =>
        obtain ⟨⟨rest, e₂⟩, hrest, hresult⟩ := bind_eq_ok.1 hdelete
        obtain ⟨rfl, rfl⟩ := Prod.mk.inj (Except.ok.inj hresult)
        have hstep : Step e .getFree e₁ := congrArg some (congrArg Prod.snd hget)
        exact .cons hstep (ih hrest)

end Engine

namespace ServerThreads

/-- The operations of the engine that a step amounts to. -/
def engineOps (t : ServerThreads) : Action → List Engine.Op
  | .copy .samples => if t.copy.engine.hasClients then [.getFree] else []
  | .copy (.encode _ out) =>
      match t.copy.loop, t.reader.consumer with
      | .encoding b, .holding block =>
          (AudioCopy.encodeCall t.copy.engine b).toOption.toList.map fun call =>
            .writeAudio b ((t.copy.engine.codec.encoded (t.reader.data block.data) out).take
              (t.copy.engine.codec.encodeWrites call.samples call.obytes))
      | _, _ => []
  | .copy (.send results) =>
      match t.copy.loop with
      | .sending b bytes =>
          t.copy.engine.codec.samplesPerPacket.toOption.toList.map fun samples =>
            .send b bytes samples results
      | _ => []
  | .copy (.newClient socket) => [.newClient socket.ip socket.port socket.connected]
  | .copy (.play c) => [.play (some c)]
  | .copy (.remove c) => [.remove (some c)]
  | .main =>
      if t.main = .deleteEngine then
        List.replicate ((t.copy.engine.deleteBlocks t.copy.engine.pool.length).toOption.elim 0
          fun r => r.1.length) .getFree
      else []
  | _ => []

/-- A client is made with a socket that has sent nothing. -/
def NewSocket (_ : ServerThreads) (a : Action) : Prop :=
  ∀ socket, a = .copy (.newClient socket) → socket.sent = []

variable {t t' : ServerThreads} {a : Action}

theorem takeBlock_run (c : AudioCopy) :
    Run Engine.Step c.engine (if c.engine.hasClients then [.getFree] else []) c.takeBlock.engine := by
  unfold AudioCopy.takeBlock
  by_cases hclients : c.engine.hasClients = true
  · rw [if_pos hclients, if_pos hclients]
    refine .single ?_
    change some c.engine.getFree.2 = _
    split <;> rename_i hget <;> rw [hget]
  · rw [if_neg hclients, if_neg hclients]
    exact .nil _

theorem Works.run {act : AudioCopy.Action} {copy : AudioCopy} (h : t.Works act copy) :
    Run Engine.Step t.copy.engine (t.engineOps (.copy act)) copy.engine := by
  cases h with
  | samples hloop => exact takeBlock_run t.copy
  | @encode b bytes result out block e hloop hholding hencode =>
      obtain ⟨call, hcall, hencode⟩ := bind_eq_ok.1 hencode
      obtain ⟨reported, -, hencode⟩ := bind_eq_ok.1 hencode
      obtain ⟨e', hwrite, hresult⟩ := bind_eq_ok.1 hencode
      obtain ⟨-, rfl⟩ := Prod.mk.inj (Except.ok.inj hresult)
      simp only [engineOps, hloop, hholding, hcall]
      exact .single (Engine.step_of_ok rfl hwrite)
  | @send b bytes samples results e hloop hsamples hsend =>
      simp only [engineOps, hloop, hsamples]
      exact .single (Engine.step_of_ok rfl hsend)

theorem client_run {act : AudioCopy.Action} {copy : AudioCopy} (hown : (Action.copy act).own = false)
    (hsocket : t.NewSocket (.copy act)) (hcopy : AudioCopy.Step t.copy act copy) :
    Run Engine.Step t.copy.engine (t.engineOps (.copy act)) copy.engine := by
  cases act with
  | samples | encode result out | send results => cases hown
  | newClient socket =>
      obtain rfl := Except.ok.inj (Option.some.inj hcopy)
      refine .single (congrArg some ?_)
      have hsent := hsocket socket rfl
      obtain ⟨ip, port, connected, sent⟩ := socket
      obtain rfl : sent = [] := hsent
      rfl
  | play c =>
      obtain rfl := Except.ok.inj (Option.some.inj hcopy)
      exact .single rfl
  | remove c =>
      obtain ⟨e, hremove, hresult⟩ := bind_eq_ok.1 (Option.some.inj hcopy)
      obtain rfl := Except.ok.inj hresult
      exact .single (Engine.step_of_ok rfl hremove)

/-- Every step is a run of the engine's operations. -/
theorem engine_run (hsocket : t.NewSocket a) (hstep : Step t a t') :
    Run Engine.Step t.copy.engine (t.engineOps a) t'.copy.engine := by
  cases moves_of_step hstep with
  | work hworking copy hworks =>
      rw [(t.worked_copy copy).1]
      exact hworks.run
  | client hown copy hengine hcopy hloop => exact client_run hown hsocket hcopy
  | deleteEngine hmain deleted engine hdelete =>
      rw [engineOps, if_pos hmain, hdelete]
      exact Engine.deleteBlocks_run hdelete
  | kill hmain | joinEncoder hmain | joinReader hmain | deleteReader hmain | deleteCodec hmain =>
      rw [engineOps, if_neg (by rw [hmain]; decide)]
      exact .nil _
  | _ => exact .nil _

end ServerThreads

end WifiAudio
