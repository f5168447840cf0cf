import WifiAudio.Lib.CString

/-!
# Messages of lines

A message is a first line, header lines up to an empty one, and a body whose length the headers give:
the form that HTTP and RTSP share. Lines end with CR LF, and a header is a name, a colon with a space
and a value. How the headers give the length is a parameter. A message that is written can be read
back whatever follows it, and not before its last byte is there, so that a stream of messages is cut
into the messages it was made of.
-/

structure TextMessage where
  start : Bytes
  headers : List (Bytes × Bytes)
  body : Bytes
  deriving DecidableEq, Repr

namespace TextMessage

/-! ### Writing -/

def lineEnd : Bytes := [13, 10]

def separator : Bytes := [58, 32]

def writeHeader (header : Bytes × Bytes) : Bytes := header.1 ++ separator ++ header.2 ++ lineEnd

def write (m : TextMessage) : Bytes :=
  m.start ++ lineEnd ++ m.headers.flatMap writeHeader ++ lineEnd ++ m.body

/-! ### Reading -/

/-- What stands in front of the first line end, and what behind it. -/
def readLine : Bytes → Option (Bytes × Bytes)
  | [] => none
  | b :: s =>
      if lineEnd.isPrefixOf (b :: s) then some ([], s.drop 1)
      else (readLine s).map fun r => (b :: r.1, r.2)

/-- The name and the value of a header. -/
def splitHeader : Bytes → Option (Bytes × Bytes)
  | [] => none
  | b :: s =>
      if separator.isPrefixOf (b :: s) then some ([], s.drop 1)
      else (splitHeader s).map fun r => (b :: r.1, r.2)

/-- The headers up to the empty line; every line takes one unit of fuel. -/
def readHeaders : ℕ → Bytes → Option (List (Bytes × Bytes) × Bytes)
  | 0, _ => none
  | fuel + 1, s => do
      let (line, s) ← readLine s
      if line = [] then return ([], s)
      let header ← splitHeader line
      let (headers, s) ← readHeaders fuel s
      return (header :: headers, s)

variable (len : List (Bytes × Bytes) → Option ℕ)

/-- The first message of a stream, and the rest of it. -/
def read (s : Bytes) : Option (TextMessage × Bytes) := do
  let (start, s) ← readLine s
  let (headers, s) ← readHeaders (s.length + 1) s
  let n ← len headers
  if s.length < n then none
  else return (⟨start, headers, s.take n⟩, s.drop n)

/-- The messages of a stream that holds no more than `fuel`. -/
def readMany : ℕ → Bytes → Option (List TextMessage)
  | _, [] => some []
  | 0, _ :: _ => none
  | fuel + 1, b :: s => do
      let (m, rest) ← read len (b :: s)
      let ms ← readMany fuel rest
      return m :: ms

/-- The messages a stream consists of. -/
def readAll (s : Bytes) : Option (List TextMessage) := readMany len s.length s

/-! ### Reading back -/

/-- A message whose parts do not hold the bytes that separate them, and whose headers give the length
of its body. -/
structure WellFormed (m : TextMessage) : Prop where
  start : 13 ∉ m.start
  names : ∀ header ∈ m.headers, 13 ∉ header.1 ∧ 58 ∉ header.1
  values : ∀ header ∈ m.headers, 13 ∉ header.2
  length : len m.headers = some m.body.length

variable {len} {m : TextMessage}

theorem readLine_lineEnd (s : Bytes) : readLine (lineEnd ++ s) = some ([], s) := rfl

theorem readLine_append {line : Bytes} (hline : 13 ∉ line) (s : Bytes) :
    readLine (line ++ lineEnd ++ s) = some (line, s) := by
  induction line with
  | nil => exact readLine_lineEnd s
  | cons b line ih =>
      obtain ⟨hb, hrest⟩ := not_or.1 (mt List.mem_cons.2 hline)
      have hne : ¬lineEnd.isPrefixOf (b :: (line ++ lineEnd ++ s)) = true := by
        simp [lineEnd, List.isPrefixOf, hb]
      change readLine (b :: (line ++ lineEnd ++ s)) = _
      rw [readLine, if_neg hne, ih hrest]
      rfl

theorem splitHeader_append {name : Bytes} (hname : 58 ∉ name) (value : Bytes) :
    splitHeader (name ++ separator ++ value) = some (name, value) := by
  induction name with
  | nil => rfl
  | cons b name ih =>
      obtain ⟨hb, hrest⟩ := not_or.1 (mt List.mem_cons.2 hname)
      have hne : ¬separator.isPrefixOf (b :: (name ++ separator ++ value)) = true := by
        simp [separator, List.isPrefixOf, hb]
      change splitHeader (b :: (name ++ separator ++ value)) = _
      rw [splitHeader, if_neg hne, ih hrest]
      rfl

theorem readHeaders_write {headers : List (Bytes × Bytes)}
    (hnames : ∀ header ∈ headers, 13 ∉ header.1 ∧ 58 ∉ header.1)
    (hvalues : ∀ header ∈ headers, 13 ∉ header.2) {fuel : ℕ} (hfuel : headers.length < fuel)
    (s : Bytes) :
    readHeaders fuel (headers.flatMap writeHeader ++ lineEnd ++ s) = some (headers, s) := by
  induction headers generalizing fuel with
  | nil =>
      obtain ⟨fuel, rfl⟩ := Nat.exists_eq_succ_of_ne_zero (Nat.ne_of_gt hfuel)
      rfl
  | cons header headers ih =>
      obtain ⟨fuel, rfl⟩ := Nat.exists_eq_succ_of_ne_zero (Nat.ne_of_gt (Nat.zero_lt_of_lt hfuel))
      have hname := hnames header List.mem_cons_self
      have hline : 13 ∉ header.1 ++ separator ++ header.2 := by
        simp [separator, hname.1, hvalues header List.mem_cons_self]
      have hnonempty : header.1 ++ separator ++ header.2 ≠ [] := by simp [separator]
      have hsplit : (header :: headers).flatMap writeHeader ++ lineEnd ++ s =
          (header.1 ++ separator ++ header.2) ++ lineEnd ++
            (headers.flatMap writeHeader ++ lineEnd ++ s) := by
        simp only [List.flatMap_cons, writeHeader, List.append_assoc]
      have hrest := ih (fun h hh => hnames h (List.mem_cons_of_mem _ hh))
        (fun h hh => hvalues h (List.mem_cons_of_mem _ hh)) (Nat.lt_of_succ_lt_succ hfuel)
      rw [hsplit, readHeaders, readLine_append hline]
      simp only [Option.bind_eq_bind, Option.bind_some, if_neg hnonempty, splitHeader_append hname.2,
        hrest]
      rfl

theorem length_headers_le (headers : List (Bytes × Bytes)) :
    headers.length ≤ (headers.flatMap writeHeader).length := by
  induction headers with
  | nil => exact le_rfl
  | cons header headers ih =>
      rw [List.flatMap_cons, List.length_append, List.length_cons]
      have hpos : 0 < (writeHeader header).length := List.length_pos_iff.2 (by simp [writeHeader, lineEnd])
      omega

/-- A message is read back, and what follows it is left. -/
theorem read_write (hm : m.WellFormed len) (rest : Bytes) :
    read len (m.write ++ rest) = some (m, rest) := by
  have hsplit : m.write ++ rest = m.start ++ lineEnd ++
      (m.headers.flatMap writeHeader ++ lineEnd ++ (m.body ++ rest)) := by
    simp only [write, List.append_assoc]
  have hfuel : m.headers.length <
      (m.headers.flatMap writeHeader ++ lineEnd ++ (m.body ++ rest)).length + 1 := by
    have hle := length_headers_le m.headers
    rw [List.length_append, List.length_append]
    omega
  have hlong : ¬(m.body ++ rest).length < m.body.length := by
    rw [List.length_append]
    omega
  rw [hsplit, read, readLine_append hm.start]
  simp only [Option.bind_eq_bind, Option.bind_some, readHeaders_write hm.names hm.values hfuel,
    hm.length, hlong, if_false, List.take_left, List.drop_left]
  rfl

theorem write_ne_nil (m : TextMessage) : m.write ≠ [] := by
  simp [write, lineEnd]

/-- A stream of messages is read back. -/
theorem readMany_write {ms : List TextMessage} (hms : ∀ m ∈ ms, m.WellFormed len) {fuel : ℕ}
    (hfuel : ms.length ≤ fuel) : readMany len fuel (ms.flatMap write) = some ms := by
  induction ms generalizing fuel with
  | nil => cases fuel <;> rfl
  | cons m ms ih =>
      obtain ⟨fuel, rfl⟩ := Nat.exists_eq_succ_of_ne_zero (Nat.ne_of_gt (Nat.zero_lt_of_lt hfuel))
      have hread := read_write (hms m List.mem_cons_self) (ms.flatMap write)
      have hrest := ih (fun m' hm' => hms m' (List.mem_cons_of_mem _ hm')) (Nat.le_of_succ_le_succ hfuel)
      rw [List.flatMap_cons]
      cases hwrite : m.write ++ ms.flatMap write with
      | nil => exact absurd (List.append_eq_nil_iff.1 hwrite).1 (write_ne_nil m)
      | cons b s =>
          rw [hwrite] at hread
          simp [readMany, hread, hrest]

theorem length_le_flatMap_write (ms : List TextMessage) : ms.length ≤ (ms.flatMap write).length := by
  induction ms with
  | nil => exact le_rfl
  | cons m ms ih =>
      have hpos := List.length_pos_iff.2 (write_ne_nil m)
      rw [List.flatMap_cons, List.length_append, List.length_cons]
      omega

theorem readAll_write {ms : List TextMessage} (hms : ∀ m ∈ ms, m.WellFormed len) :
    readAll len (ms.flatMap write) = some ms :=
  readMany_write hms (length_le_flatMap_write ms)

/-! ### Nothing is read too early -/

theorem readLine_more {s line rest : Bytes} (h : readLine s = some (line, rest)) (t : Bytes) :
    readLine (s ++ t) = some (line, rest ++ t) := by
  induction s generalizing line rest with
  | nil => cases h
  | cons b s ih =>
      rw [readLine] at h
      rw [List.cons_append, readLine]
      by_cases hend : lineEnd.isPrefixOf (b :: s) = true
      · rw [if_pos hend] at h
        obtain ⟨rfl, rfl⟩ := Prod.mk.inj (Option.some.inj h)
        obtain ⟨u, hu⟩ := List.isPrefixOf_iff_prefix.1 hend
        obtain ⟨rfl, rfl⟩ : 13 = b ∧ 10 :: u = s := by simpa [lineEnd] using hu
        rfl
      · rw [if_neg hend] at h
        obtain ⟨⟨line', rest'⟩, hrest, hr⟩ := Option.map_eq_some_iff.1 h
        obtain ⟨rfl, rfl⟩ := Prod.mk.inj hr
        have hend' : ¬lineEnd.isPrefixOf (b :: (s ++ t)) = true := by
          cases s with
          | nil => cases hrest
          | cons c s => simpa [lineEnd, List.isPrefixOf] using hend
        rw [if_neg hend', ih hrest]
        rfl

theorem readHeaders_more {fuel : ℕ} {s rest : Bytes} {headers : List (Bytes × Bytes)}
    (h : readHeaders fuel s = some (headers, rest)) (t : Bytes) (k : ℕ) :
    readHeaders (fuel + k) (s ++ t) = some (headers, rest ++ t) := by
  induction fuel generalizing s headers rest with
  | zero => cases h
  | succ fuel ih =>
      obtain ⟨⟨line, s'⟩, hline, h⟩ := Option.bind_eq_some_iff.1 h
      rw [Nat.succ_add, readHeaders, readLine_more hline t]
      by_cases hempty : line = []
      · obtain ⟨rfl, rfl⟩ : [] = headers ∧ s' = rest := by simpa [hempty] using h
        simp [hempty]
      · simp only [hempty, if_false] at h
        obtain ⟨header, hheader, h⟩ := Option.bind_eq_some_iff.1 h
        obtain ⟨⟨headers', s''⟩, hheaders, h⟩ := Option.bind_eq_some_iff.1 h
        obtain ⟨rfl, rfl⟩ : header :: headers' = headers ∧ s'' = rest := by simpa using h
        simp [hempty, hheader, ih hheaders]

theorem read_more {s rest : Bytes} (h : read len s = some (m, rest)) (t : Bytes) :
    read len (s ++ t) = some (m, rest ++ t) := by
  obtain ⟨⟨start, s₁⟩, hstart, h⟩ := Option.bind_eq_some_iff.1 h
  obtain ⟨⟨headers, s₂⟩, hheaders, h⟩ := Option.bind_eq_some_iff.1 h
  obtain ⟨n, hn, h⟩ := Option.bind_eq_some_iff.1 h
  have hmore := readHeaders_more hheaders t t.length
  have hfuel : s₁.length + 1 + t.length = (s₁ ++ t).length + 1 := by
    rw [List.length_append]
    omega
  rw [hfuel] at hmore
  by_cases hshort : s₂.length < n
  · simp [hshort] at h
  · simp only [hshort, if_false] at h
    obtain ⟨rfl, rfl⟩ : (⟨start, headers, s₂.take n⟩ : TextMessage) = m ∧ s₂.drop n = rest := by
      simpa using h
    have hlong : n ≤ s₂.length := Nat.le_of_not_lt hshort
    have hlong' : ¬(s₂ ++ t).length < n := by
      rw [List.length_append]
      omega
    rw [read, readLine_more hstart t]
    simp only [Option.bind_eq_bind, Option.bind_some, hmore, hn, hlong', if_false,
      List.take_append_of_le_length hlong, List.drop_append_of_le_length hlong]
    rfl

/-- A message is not there before its last byte is. -/
theorem read_prefix (hm : m.WellFormed len) {s : Bytes} (hs : s <+: m.write) (hne : s ≠ m.write) :
    read len s = none := by
  obtain ⟨t, ht⟩ := hs
  cases hread : read len s with
  | none => rfl
  | some r =>
      obtain ⟨m', rest⟩ := r
      have hwhole := read_more hread t
      rw [ht] at hwhole
      have hback := read_write hm []
      rw [List.append_nil, hwhole] at hback
      obtain ⟨-, hrest⟩ := Prod.mk.inj (Option.some.inj hback)
      obtain rfl := (List.append_eq_nil_iff.1 hrest).2
      exact absurd (by simpa using ht) hne

end TextMessage
