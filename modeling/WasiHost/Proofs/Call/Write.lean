import WasiHost.Proofs.Call.Answer
import WasiHost.Proofs.Memory.Arrays
import WasiHost.Proofs.Memory.Reach
import WasiHost.Proofs.Session.Run
import WasiHost.Proofs.Text.Utf8

/-!
# What a write does

A write can be served if its list of buffers can be read, the cell for the count is there, every
buffer is inside, and the octets of all buffers can be counted. On the two output streams it then
lets out one text, after all that can fail and before the count is stored, which cannot fail any
more; on an opened file it only counts. What is let out are the octets as they were before, so
neither buffers that overlap nor a cell that lies inside one of them makes a difference, and a text
may be cut anywhere between the buffers, inside a character as well.

* **`LinearMemory.CanWrite`** — when a write can be served.
* **`fdWrite_eq_ok_iff`** — what a write does that succeeds, and that no other does.
* **`Session.Reachable.writesOnce`** — texts reach their stream once, whole and in order.
-/

namespace WasiHost

open Memory

/-- A list of buffers, the buffers and the cell for the count lie inside, and the count is a word.
-/
structure LinearMemory.CanWrite (linear : LinearMemory) (buffers count address : UInt32) :
    Prop where
  list : count = 0 ∨ buffers.toNat + count.toNat * IoVec.size.toNat ≤ linear.bytes.size
  cell : address.toNat + 4 ≤ linear.bytes.size
  inside : ∀ v ∈ linear.listAt buffers count,
    v.buf.toNat + v.len.toNat ≤ linear.bytes.size
  total : IoVec.room (linear.listAt buffers count) < UInt32.size

/-- What octets make a descriptor let out, if it takes any. -/
def Descriptor.sent? (data : Bytes) : Descriptor → Option Event
  | stdout => some (.stdout (Utf8.decodeLossy data))
  | stderr => some (.stderr (Utf8.decodeLossy data))
  | file path _ _ _ => some (.log (Action.dropped path data.length))
  | stdin | preopened _ | directory _ _ => none

namespace Action

variable {w w' : Workspace} {fd : Fd} {linear : LinearMemory} {vectors : List IoVec}
  {buffers count address moved : UInt32}

/-! ## Octets on their way -/

/-- `gatherText` and `emit`: a text goes out exactly if its octets can be gathered and counted. -/
theorem sendText_eq_ok_iff (event : String → Event) (hmemory : w.memory = .attached linear) :
    (do
      let (text, moved) ← access (Access.reading fun memory => memory.gatherText vectors)
      emit [event text]
      pure moved : Action UInt32) w = .ok moved w' ↔
      (∀ v ∈ vectors, InRange v.buf v.len linear.bytes.size) ∧
        IoVec.room vectors < UInt32.size ∧ moved = UInt32.ofNat (IoVec.room vectors) ∧
        w' = { w with
          events := w.events ++ [event (Utf8.decodeLossy (linear.gathered vectors))] } := by
  constructor
  · intro h
    obtain ⟨⟨text, n⟩, w₁, hgather, h⟩ := bind_eq_ok_iff.mp h
    obtain ⟨_, hread, rfl⟩ := access_eq_ok_iff.mp hgather
    obtain ⟨htext, rfl⟩ := Access.reading_eq_ok_iff.mp hread
    rw [hmemory] at htext
    obtain ⟨hinside, htotal, rfl, rfl⟩ := gatherText_eq_ok_iff.mp htext
    cases h
    exact ⟨hinside, htotal, rfl, rfl⟩
  · rintro ⟨hinside, htotal, rfl, rfl⟩
    -- `gatherText` counts as well as it decodes
    have htext := gatherText_eq_ok_iff.mpr ⟨hinside, htotal, rfl, rfl⟩
    rw [← hmemory] at htext
    rw [bind_of_ok (access_eq_ok_iff.mpr ⟨_, Access.reading_eq_ok_iff.mpr ⟨htext, rfl⟩, rfl⟩)]
    rfl

/-- `gather` for a file: octets are counted under the same condition, though no text is made of
them. -/
theorem countOctets_eq_ok_iff (path : String) (hmemory : w.memory = .attached linear) :
    (do
      let bytes ← access (Access.reading fun memory => memory.gather vectors)
      emit [.log (dropped path bytes.length)]
      word bytes.length : Action UInt32) w = .ok moved w' ↔
      (∀ v ∈ vectors, InRange v.buf v.len linear.bytes.size) ∧
        IoVec.room vectors < UInt32.size ∧ moved = UInt32.ofNat (IoVec.room vectors) ∧
        w' = { w with
          events := w.events ++ [.log (dropped path (linear.gathered vectors).length)] } := by
  constructor
  · intro h
    obtain ⟨bytes, w₁, hgather, h⟩ := bind_eq_ok_iff.mp h
    obtain ⟨_, hread, rfl⟩ := access_eq_ok_iff.mp hgather
    obtain ⟨hbytes, rfl⟩ := Access.reading_eq_ok_iff.mp hread
    rw [hmemory] at hbytes
    obtain ⟨hinside, rfl⟩ := gather_eq_ok_iff.mp hbytes
    obtain ⟨_, w₂, hlog, hword⟩ := bind_eq_ok_iff.mp h
    cases hlog
    obtain ⟨htotal, rfl, rfl⟩ := word_eq_ok_iff.mp hword
    rw [linear.length_gathered] at htotal ⊢
    exact ⟨hinside, htotal, rfl, rfl⟩
  · rintro ⟨hinside, htotal, rfl, rfl⟩
    -- the octets can be gathered, and `word` accepts their number
    have hbytes := gather_eq_ok_iff.mpr ⟨hinside, rfl⟩
    rw [← hmemory] at hbytes
    rw [bind_of_ok (access_eq_ok_iff.mpr ⟨_, Access.reading_eq_ok_iff.mpr ⟨hbytes, rfl⟩, rfl⟩)]
    rw [← linear.length_gathered] at htotal ⊢
    exact word_eq_ok_iff.mpr ⟨htotal, rfl, rfl⟩

theorem writeFrom_eq_ok_iff (hmemory : w.memory = .attached linear) :
    writeFrom fd vectors w = .ok moved w' ↔
      (∀ v ∈ vectors, InRange v.buf v.len linear.bytes.size) ∧
        IoVec.room vectors < UInt32.size ∧ moved = UInt32.ofNat (IoVec.room vectors) ∧
        ∃ d event, w.session.table.get fd = .ok d ∧
          d.sent? (linear.gathered vectors) = some event ∧
          w' = { w with events := w.events ++ [event] } := by
  unfold writeFrom
  cases hget : w.session.table.get fd with
  | error errno =>
    constructor
    · intro h
      obtain ⟨d, w₁, hd, _⟩ := bind_eq_ok_iff.mp h
      cases hget.symm.trans (descriptor_eq_ok_iff.mp hd).1
    · rintro ⟨_, _, _, d, event, hd, _⟩
      cases hd
  | ok d =>
    rw [bind_of_ok (descriptor_eq_ok_iff.mpr ⟨hget, rfl⟩)]
    cases d with
    | stdout =>
      refine (sendText_eq_ok_iff Event.stdout hmemory).trans ?_
      simp [Descriptor.sent?]
    | stderr =>
      refine (sendText_eq_ok_iff Event.stderr hmemory).trans ?_
      simp [Descriptor.sent?]
    | file path offset content status =>
      refine (countOctets_eq_ok_iff path hmemory).trans ?_
      simp [Descriptor.sent?]
    | _ =>
      -- the others refuse, and nothing is sent to them
      constructor
      · intro h
        cases h
      · rintro ⟨_, _, _, d, event, hd, hsent, _⟩
        cases hd
        cases hsent

/-- `fdWrite` succeeds exactly if its array can be read, its cell and its buffers lie inside, their
octets can be counted, and its descriptor takes octets. -/
theorem fdWrite_eq_ok_iff_arrayInside (hmemory : w.memory = .attached linear) :
    fdWrite fd buffers count address w = .ok () w' ↔
      Access.ArrayInside linear buffers count ∧ address.toNat + 4 ≤ linear.bytes.size ∧
        (∀ v ∈ linear.listAt buffers count, InRange v.buf v.len linear.bytes.size) ∧
        IoVec.room (linear.listAt buffers count) < UInt32.size ∧
        ∃ d event, w.session.table.get fd = .ok d ∧
          d.sent? (linear.gathered (linear.listAt buffers count)) = some event ∧
          w' = { w with
            memory := .attached (linear.write address (LittleEndian.encode 4
              (IoVec.room (linear.listAt buffers count))))
            events := w.events ++ [event] } := by
  have hsum (h : IoVec.room (linear.listAt buffers count) < UInt32.size) :
      (UInt32.ofNat (IoVec.room (linear.listAt buffers count))).toNat =
        IoVec.room (linear.listAt buffers count) := UInt32.toNat_ofNat_of_lt' h
  obtain ⟨session, _, events⟩ := w
  subst hmemory
  constructor
  · intro h
    obtain ⟨vectors, _, hlist, h⟩ := bind_eq_ok_iff.mp h
    obtain ⟨_, _, hcheck, h⟩ := bind_eq_ok_iff.mp h
    obtain ⟨moved, _, hfrom, hstore⟩ := bind_eq_ok_iff.mp h
    -- the list is read and the cell is looked at, and the memory is still the same
    obtain ⟨_, hread, rfl⟩ := access_eq_ok_iff.mp hlist
    obtain ⟨hinside, rfl, rfl⟩ := Access.readIoVecs_eq_ok_iff_arrayInside.mp hread
    obtain ⟨_, hpassed, rfl⟩ := access_eq_ok_iff.mp hcheck
    obtain ⟨_, rfl⟩ := Access.check_eq_ok_iff.mp hpassed
    obtain ⟨hvectors, htotal, rfl, d, event, hd, hsent, rfl⟩ := (writeFrom_eq_ok_iff rfl).mp hfrom
    obtain ⟨_, hwrite, rfl⟩ := access_eq_ok_iff.mp hstore
    obtain ⟨hcell, rfl⟩ := Access.writeU32_eq_ok_iff.mp hwrite
    refine ⟨hinside, hcell, hvectors, htotal, d, event, hd, hsent, ?_⟩
    rw [hsum htotal]
  · rintro ⟨hinside, hcell, hvectors, htotal, d, event, hd, hsent, rfl⟩
    have hread := Access.readIoVecs_eq_ok_iff_arrayInside.mpr ⟨hinside, rfl, rfl⟩
    have hcheck : Memory.check (.attached linear) address 4 = .ok () :=
      Memory.check_eq_ok_iff.mpr ⟨linear, rfl, hcell⟩
    have hfrom := (writeFrom_eq_ok_iff (w := ⟨session, .attached linear, events⟩) rfl).mpr
      ⟨hvectors, htotal, rfl, d, event, hd, hsent, rfl⟩
    have hgate : access (Access.check address 4) ⟨session, .attached linear, events⟩ = .ok () _ :=
      access_eq_ok_iff.mpr ⟨_, Access.check_eq_ok_iff.mpr ⟨hcheck, rfl⟩, rfl⟩
    unfold fdWrite
    rw [bind_of_ok (access_eq_ok_iff.mpr ⟨_, hread, rfl⟩), bind_of_ok hgate, bind_of_ok hfrom]
    exact access_eq_ok_iff.mpr
      ⟨_, Access.writeU32_eq_ok_iff.mpr ⟨hcell, by rw [hsum htotal]⟩, rfl⟩

/-- In a memory whose size is a word, `fdWrite` succeeds exactly if it `CanWrite` and its descriptor
takes octets. -/
theorem fdWrite_eq_ok_iff (hmemory : w.memory = .attached linear)
    (hsize : linear.bytes.size < UInt32.size) :
    fdWrite fd buffers count address w = .ok () w' ↔
      linear.CanWrite buffers count address ∧
        ∃ d event, w.session.table.get fd = .ok d ∧
          d.sent? (linear.gathered (linear.listAt buffers count)) = some event ∧
          w' = { w with
            memory := .attached (linear.write address (LittleEndian.encode 4
              (IoVec.room (linear.listAt buffers count))))
            events := w.events ++ [event] } := by
  rw [fdWrite_eq_ok_iff_arrayInside hmemory]
  constructor
  · rintro ⟨hinside, hcell, hvectors, htotal, hsent⟩
    exact ⟨⟨hinside.imp_right And.left, hcell, hvectors, htotal⟩, hsent⟩
  · rintro ⟨⟨hlist, hcell, hvectors, htotal⟩, hsent⟩
    exact ⟨hlist.imp_right fun h => ⟨h, hsize⟩, hcell, hvectors, htotal, hsent⟩

end Action

/-! ## Writes of a session -/

/-- A write was served: it answers zero, has let out the given texts, and has stored the count and
nothing else. -/
structure Reply.Served (reply : Reply) (linear : LinearMemory) (address : UInt32) (moved : Nat)
    (stdout stderr : List String) : Prop where
  answer : reply.answer = .ok 0
  stdout_eq : Event.stdoutTexts reply.events = stdout
  stderr_eq : Event.stderrTexts reply.events = stderr
  count : ∃ n, reply.memory.readU32 address = .ok n ∧ n.toNat = moved
  memory : SameOutside (Spans address 4) (.attached linear) reply.memory

/-- A write was refused: it answers an error number, has let out no text and has stored nothing. -/
structure Reply.Refused (reply : Reply) (linear : LinearMemory) : Prop where
  answer : reply.answer = .ok 8
  stdout_eq : Event.stdoutTexts reply.events = []
  stderr_eq : Event.stderrTexts reply.events = []
  memory_eq : reply.memory = .attached linear

/-- Whether a descriptor is one of the output streams or an opened file. -/
def Session.TakesOctets (s : Session) (fd : Fd) : Prop :=
  fd = Fd.stdout ∨ fd = Fd.stderr ∨
    ∃ path offset content status, s.table.get fd = .ok (.file path offset content status)

/-- What a write does in a session, given the reply to it. -/
structure Reply.WritesOnce (reply : Reply) (s : Session) (linear : LinearMemory) (fd : Fd)
    (buffers count address : UInt32) : Prop where
  session_eq : reply.session = s
  stdout : linear.CanWrite buffers count address → fd = Fd.stdout →
    reply.Served linear address (IoVec.room (linear.listAt buffers count))
      [Utf8.decodeLossy (linear.gathered (linear.listAt buffers count))] []
  stderr : linear.CanWrite buffers count address → fd = Fd.stderr →
    reply.Served linear address (IoVec.room (linear.listAt buffers count)) []
      [Utf8.decodeLossy (linear.gathered (linear.listAt buffers count))]
  file : linear.CanWrite buffers count address → ∀ path offset content status,
    s.table.get fd = .ok (.file path offset content status) →
      reply.Served linear address (IoVec.room (linear.listAt buffers count)) [] []
  refused : ¬ (linear.CanWrite buffers count address ∧ s.TakesOctets fd) → reply.Refused linear
  /-- A text that is cut anywhere into the octets of the buffers is put together again. -/
  text : linear.CanWrite buffers count address → ∀ (text : String) (pieces : List Bytes),
    pieces.flatten = utf8 text →
    (linear.listAt buffers count).map linear.held = pieces →
      (fd = Fd.stdout → Event.stdoutTexts reply.events = [text]) ∧
        (fd = Fd.stderr → Event.stderrTexts reply.events = [text])

namespace Call

variable {host : Host} {s : Session} {linear : LinearMemory} {fd : Fd}
  {buffers count address : UInt32} {d : Descriptor} {event : Event}

theorem session_fdWrite (host : Host) (s : Session) (memory : Memory) (fd : Fd)
    (buffers count address : UInt32) :
    ((fdWrite fd buffers count address).perform host s memory).session = s := by
  have hkeep := Action.keeps_session_fdWrite fd buffers count address
  cases hrun : (fdWrite fd buffers count address).run host s memory with
  | ok u w => exact (perform_of_ok hrun).2.1.trans (hkeep.ok hrun)
  | error e w => exact (perform_of_error hrun).1.trans (hkeep.failsClean _ e w hrun)

/-- An `fdWrite` that `CanWrite` and whose descriptor takes octets lets out what the descriptor
sends. -/
theorem served_of_sent (hsize : linear.bytes.size < UInt32.size)
    (hwrite : linear.CanWrite buffers count address) (hget : s.table.get fd = .ok d)
    (hsent : d.sent? (linear.gathered (linear.listAt buffers count)) = some event) :
    ((fdWrite fd buffers count address).perform host s (.attached linear)).Served linear address
      (IoVec.room (linear.listAt buffers count)) (Event.stdoutTexts [event])
      (Event.stderrTexts [event]) := by
  have hrun : (fdWrite fd buffers count address).run host s (.attached linear) = .ok () _ :=
    (Action.fdWrite_eq_ok_iff rfl hsize).mpr ⟨hwrite, d, event, hget, hsent, rfl⟩
  obtain ⟨hanswer, _, hmemory⟩ := perform_of_ok hrun
  obtain ⟨hstdout, hstderr⟩ := texts_perform host (fdWrite fd buffers count address) s
    (.attached linear)
  rw [hrun] at hstdout hstderr
  -- the count that is stored is the one that is read back
  have hsum : (UInt32.ofNat (IoVec.room (linear.listAt buffers count))).toNat =
      IoVec.room (linear.listAt buffers count) := UInt32.toNat_ofNat_of_lt' hwrite.total
  have hstored : Access.writeU32 address (UInt32.ofNat (IoVec.room (linear.listAt buffers count)))
      (.attached linear) = .ok () (.attached (linear.write address
        (LittleEndian.encode 4 (IoVec.room (linear.listAt buffers count))))) :=
    Access.writeU32_eq_ok_iff.mpr ⟨hwrite.cell, by rw [hsum]⟩
  exact
    { answer := hanswer
      stdout_eq := hstdout
      stderr_eq := hstderr
      count := ⟨_, hmemory ▸ Access.readU32_of_writeU32 hstored, hsum⟩
      memory := hmemory ▸ (Access.reachesOnly_writeU32 _ _).ok hstored }

/-- An `fdWrite` that cannot be served, or whose descriptor takes no octets, does nothing. -/
theorem refused_of_not_sent (hsound : s.table.Sound) (hsize : linear.bytes.size < UInt32.size)
    (hnot : ¬ (linear.CanWrite buffers count address ∧ ∃ d event, s.table.get fd = .ok d ∧
      d.sent? (linear.gathered (linear.listAt buffers count)) = some event)) :
    ((fdWrite fd buffers count address).perform host s (.attached linear)).Refused linear := by
  obtain ⟨answer, hanswer, hanswers⟩ :=
    perform_answers host (fdWrite fd buffers count address) s linear
  -- a success would have met the condition
  cases hrun : (fdWrite fd buffers count address).run host s (.attached linear) with
  | ok u w =>
    obtain ⟨hwrite, d, event, hget, hsent, _⟩ := (Action.fdWrite_eq_ok_iff rfl hsize).mp hrun
    exact absurd ⟨hwrite, d, event, hget, hsent⟩ hnot
  | error e w =>
    rw [hrun] at hanswers
    -- with a memory there, no failure is fatal
    have height : answer = 8 := by
      cases e with
      | guest errno => exact hanswers
      | fatal error => exact hanswers.elim
    subst height
    have hfailed : ((fdWrite fd buffers count address).perform host s (.attached linear)).answer ≠
        .ok 0 := by
      rw [hanswer]
      decide
    obtain ⟨_, hstdout, hstderr, hmemory⟩ := perform_of_answer_ne_zero hsound hfailed
    exact ⟨hanswer, hstdout, hstderr, hmemory rfl⟩

end Call

/-- Only the output streams and opened files have something `sent?`. -/
theorem Session.takesOctets_of_sent {s : Session} (hsound : s.table.Sound) {fd : Fd}
    {d : Descriptor}
    {data : Bytes} {event : Event} (hget : s.table.get fd = .ok d)
    (hsent : d.sent? data = some event) : s.TakesOctets fd := by
  -- what is open is an opened descriptor or a reserved one; directories and standard input send
  -- nothing
  obtain ⟨_, hopened⟩ | ⟨_, rfl⟩ | ⟨rfl, _⟩ | ⟨rfl, _⟩ | ⟨_, rfl⟩ := hsound.cases_of_get hget
  · cases hopened with
    | file path offset content status => exact .inr (.inr ⟨path, offset, content, status, hget⟩)
    | directory => cases hsent
  · cases hsent
  · exact .inl rfl
  · exact .inr (.inl rfl)
  · cases hsent

/-- In every `Reachable` session `fdWrite` lets its octets out once, whole and in order, or does
nothing at all. -/
theorem Session.Reachable.writesOnce {s : Session} (h : s.Reachable) (host : Host)
    {linear : LinearMemory} (hsize : linear.bytes.size < UInt32.size) (fd : Fd)
    (buffers count address : UInt32) :
    ((Call.fdWrite fd buffers count address).perform host s (.attached linear)).WritesOnce s linear
      fd buffers count address := by
  exact
    { session_eq := Call.session_fdWrite host s (.attached linear) fd buffers count address
      stdout := fun hwrite hfd =>
        Call.served_of_sent hsize hwrite (hfd ▸ h.sound.stdout) rfl
      stderr := fun hwrite hfd =>
        Call.served_of_sent hsize hwrite (hfd ▸ h.sound.stderr) rfl
      file := fun hwrite path offset content status hget =>
        Call.served_of_sent hsize hwrite hget rfl
      refused := fun hnot => by
        refine Call.refused_of_not_sent h.sound hsize ?_
        rintro ⟨hwrite, d, event, hget, hsent⟩
        exact hnot ⟨hwrite, takesOctets_of_sent h.sound hget hsent⟩
      text := fun hwrite text pieces htext hpieces => by
        -- octets of whole characters are decoded to these characters
        have hgathered : linear.gathered (linear.listAt buffers count) = utf8 text := by
          rw [LinearMemory.gathered, hpieces, htext]
        have hdecoded :
              Utf8.decodeLossy (linear.gathered (linear.listAt buffers count)) = text := by
          rw [hgathered, Utf8.decodeLossy_utf8]
        constructor
        · intro hfd
          refine (Call.served_of_sent hsize hwrite (hfd ▸ h.sound.stdout) rfl).stdout_eq.trans ?_
          rw [← hdecoded]
          rfl
        · intro hfd
          refine (Call.served_of_sent hsize hwrite (hfd ▸ h.sound.stderr) rfl).stderr_eq.trans ?_
          rw [← hdecoded]
          rfl }

/-- A character that is cut in two, with an empty buffer between its octets, comes out of `fdWrite`
whole. -/
theorem Session.writesOnce_of_cut_character :
    let linear : LinearMemory :=
      { bytes := ((Octets.zeros 64).write 0 (utf8 "é")).write 8
          (IoVec.pack ⟨0, 1⟩ ++ IoVec.pack ⟨1, 0⟩ ++ IoVec.pack ⟨1, 1⟩) }
    let reply := (Call.fdWrite Fd.stdout 8 3 40).perform (.ofTree .empty) initial (.attached linear)
    linear.CanWrite 8 3 40 ∧ linear.bytes.size < UInt32.size ∧ initial.Reachable ∧
      Event.stdoutTexts reply.events = ["é"] := by
  intro linear reply
  have hwrite : linear.CanWrite 8 3 40 := ⟨by decide, by decide, by decide, by decide⟩
  have honce : reply.WritesOnce initial linear Fd.stdout 8 3 40 :=
    reachable_initial.writesOnce (.ofTree .empty) (by decide) Fd.stdout 8 3 40
  refine ⟨hwrite, by decide, reachable_initial, ?_⟩
  exact (honce.text hwrite "é" [[0xC3], [], [0xA9]] (by decide) (by decide)).1 rfl

end WasiHost
