import WasiHost.Proofs.Call.Locality
import WasiHost.Proofs.Session.StandardInput

/-!
# Calls in either order

What a call on one descriptor does to a session, it does to the entry of its descriptor, and to the
queue if the descriptor reads from it. A call on another descriptor agrees with itself about all of
that whether it runs before or after, as long as neither writes to guest memory where the other
reads or writes. So the two may run in either order. What they share by name, the table, the queue,
the memory that also holds the lists of buffers, they do not share by what is in it.

* **`Operation.Independent`** — neither writes where the other reads or writes.
* **`Session.DiffersAt`** — what a call on one descriptor leaves of a session.
* **`Session.follows`** — how the second of two calls goes, told by how it goes alone.
* **`Session.Reachable.operations_commute`** — two calls give the same in either order.
-/

namespace WasiHost

open Memory

/-- Neither writes where the other reads or writes. -/
structure Operation.Independent (a b : Operation) (memory : Memory) : Prop where
  left : ∀ i, a.Writes memory i → ¬ (b.Reads memory i ∨ b.Writes memory i)
  right : ∀ i, b.Writes memory i → ¬ (a.Reads memory i ∨ a.Writes memory i)

theorem Operation.Independent.symm {a b : Operation} {memory : Memory}
    (h : a.Independent b memory) : b.Independent a memory :=
  ⟨h.right, h.left⟩

namespace DescriptorTable

/-- The table with an entry under a number, as far as an entry can be put there. -/
def withEntry (table : DescriptorTable) (fd : Fd) : Except ErrNo Descriptor → DescriptorTable
  | .ok d => table.set fd d
  | .error _ => table

theorem withEntry_get (table : DescriptorTable) (fd : Fd) :
    table.withEntry fd (table.get fd) = table := by
  cases hget : table.get fd with
  | ok d => exact set_of_get hget
  | error errno => rfl

/-- `set` is `withEntry` of what `get` finds afterwards. -/
theorem withEntry_get_set (table : DescriptorTable) (fd : Fd) (d : Descriptor) :
    table.withEntry fd ((table.set fd d).get fd) = table.set fd d := by
  cases hget : table.get fd with
  | ok old =>
    rw [get_set_self hget]
    rfl
  | error errno => rw [set_of_get_error hget, withEntry_get]

theorem get_withEntry_of_ne {table : DescriptorTable} {fd fd' : Fd} (h : fd' ≠ fd)
    (entry : Except ErrNo Descriptor) : (table.withEntry fd entry).get fd' = table.get fd' := by
  cases entry with
  | ok d => exact get_set_of_ne h
  | error errno => rfl

/-- Entries under two numbers may be put in either order, by `DescriptorTable.set_comm`. -/
theorem withEntry_comm (table : DescriptorTable) {fd fd' : Fd} (h : fd ≠ fd')
    (entry entry' : Except ErrNo Descriptor) :
    (table.withEntry fd entry).withEntry fd' entry' =
      (table.withEntry fd' entry').withEntry fd entry := by
  cases entry with
  | error errno => rfl
  | ok d =>
    cases entry' with
    | error errno => rfl
    | ok d' => exact set_comm table h d d'

end DescriptorTable

namespace Session

variable {s s' : Session} {host : Host} {fd fd' : Fd} {memory : Memory} {a b : Operation}

/-! ## What one call leaves

A call leaves the session as it was but for its descriptor (`DiffersAt`). Two such differences in
different places determine the session, in whatever order they were made. -/

/-- The session afterwards is the one before, but for the entry of one descriptor, and for the queue
if that descriptor reads from it. -/
structure DiffersAt (fd : Fd) (s s' : Session) : Prop where
  table : s'.table = s.table.withEntry fd (s'.table.get fd)
  stdin : fd ≠ Fd.stdin → s'.stdin = s.stdin
  exitCode : s'.exitCode = s.exitCode
  options : s'.options = s.options

theorem DiffersAt.refl (fd : Fd) (s : Session) : s.DiffersAt fd s :=
  ⟨(s.table.withEntry_get fd).symm, fun _ => rfl, rfl, rfl⟩

/-- `set` is the one place of difference. -/
theorem differsAt_set (s : Session) (fd : Fd) (d : Descriptor) :
    s.DiffersAt fd { s with table := s.table.set fd d } :=
  ⟨(s.table.withEntry_get_set fd d).symm, fun _ => rfl, rfl, rfl⟩

theorem DiffersAt.get_of_ne (h : s.DiffersAt fd s') (hne : fd' ≠ fd) :
    s'.table.get fd' = s.table.get fd' := by
  rw [h.table]
  exact DescriptorTable.get_withEntry_of_ne hne _

/-- The ways of `Session.Moves` that are open to the five calls change one entry, or the queue under
standard input. -/
theorem Moves.differsAt {succeeded : Bool} (op : Operation)
    (h : s.Moves host (op.on fd) succeeded s') (hsound : s.table.Sound) : s.DiffersAt fd s' := by
  cases op with
  | status address | seek offset whence address | write buffers count address =>
    cases h
    exact .refl fd s
  | setFlags flags =>
    cases h with
    | stays => exact .refl fd s
    | flags _ _ d hget => exact differsAt_set s fd _
  | read buffers count address =>
    cases h with
    | stays => exact .refl fd s
    | loads _ _ _ _ path offset content status bytes hget => exact differsAt_set s fd _
    | serves _ _ _ _ vectors data _ hserves =>
      cases hserves with
      | file path offset content status bytes moved hget => exact differsAt_set s fd _
      | stdin k hget =>
        -- standard input takes from the queue, and has no other number
        refine ⟨(s.table.withEntry_get fd).symm, fun hfd => ?_, rfl, rfl⟩
        exact absurd (hsound.eq_stdin hget) hfd

/-- Two sessions that `DiffersAt` the same two places from one, and agree there, are the same. -/
theorem eq_of_differsAt {first second first' second' : Session} (hne : fd ≠ fd')
    (hfirst : s.DiffersAt fd first) (hsecond : first.DiffersAt fd' second)
    (hfirst' : s.DiffersAt fd' first') (hsecond' : first'.DiffersAt fd second')
    (hentry : second'.table.get fd = first.table.get fd)
    (hentry' : second.table.get fd' = first'.table.get fd')
    (hstdin : fd = Fd.stdin → second'.stdin = first.stdin)
    (hstdin' : fd' = Fd.stdin → second.stdin = first'.stdin) : second = second' := by
  -- both tables are the one before with the same two entries, put there in turn
  have htable : second.table = second'.table := by
    calc second.table
      _ = first.table.withEntry fd' (first'.table.get fd') := hentry' ▸ hsecond.table
      _ = (s.table.withEntry fd (first.table.get fd)).withEntry fd' (first'.table.get fd') :=
        congrArg (fun table => table.withEntry fd' (first'.table.get fd')) hfirst.table
      _ = (s.table.withEntry fd' (first'.table.get fd')).withEntry fd (first.table.get fd) :=
        s.table.withEntry_comm hne _ _
      _ = first'.table.withEntry fd (first.table.get fd) :=
        congrArg (fun table => table.withEntry fd (first.table.get fd)) hfirst'.table.symm
      _ = second'.table := hentry ▸ hsecond'.table.symm
  have hqueue : second.stdin = second'.stdin := by
    by_cases hfd : fd = Fd.stdin
    · have hfd' : fd' ≠ Fd.stdin := fun h => hne (hfd.trans h.symm)
      rw [hsecond.stdin hfd', hstdin hfd]
    · by_cases hfd' : fd' = Fd.stdin
      · rw [hstdin' hfd', hsecond'.stdin hfd]
      · rw [hsecond.stdin hfd', hfirst.stdin hfd, hsecond'.stdin hfd, hfirst'.stdin hfd']
  have hexit : second.exitCode = second'.exitCode := by
    rw [hsecond.exitCode, hfirst.exitCode, hsecond'.exitCode, hfirst'.exitCode]
  have hoptions : second.options = second'.options := by
    rw [hsecond.options, hfirst.options, hsecond'.options, hfirst'.options]
  cases second
  cases second'
  simp only [Session.mk.injEq]
  exact ⟨htable, hqueue, hexit, hoptions⟩

/-! ## Two calls

`follows` is used twice, once for either order. Each of the two calls then goes as it goes alone, so
the order cannot matter. -/

/-- `perform` of an `Operation` differs at its descriptor only: so does every `Moves`. -/
theorem differsAt_perform (hsound : s.table.Sound) (op : Operation) (host : Host) (fd : Fd)
    (memory : Memory) : s.DiffersAt fd ((op.on fd).perform host s memory).session := by
  obtain ⟨succeeded, hmoves, -⟩ := Call.perform_moves host (op.on fd) memory hsound
  exact hmoves.differsAt op hsound

/-- After a call that is `Independent` of it, a call goes as it goes alone, and stays in the same
places. -/
theorem follows (hsound : s.table.Sound) (hne : fd ≠ fd') (h : a.Independent b memory)
    (host : Host) :
    let first := (a.on fd).perform host s memory
    let second := (b.on fd').perform host first.session first.memory
    Reply.AgreesFor fd' (fun i => a.Writes memory i) ((b.on fd').perform host s memory) second ∧
      SameOutside (fun i => b.Writes memory i) first.memory second.memory := by
  intro first second
  have hsame : SameOutside (fun i => a.Writes memory i) memory first.memory :=
    a.sameOutside_perform host fd s memory
  have hreads : ∀ i, b.Reads memory i → ¬ a.Writes memory i :=
    fun i hread hwrite => h.left i hwrite (.inl hread)
  have hdiffers := differsAt_perform hsound a host fd memory
  constructor
  · refine b.agreesFor_perform host ⟨hsame, hdiffers.get_of_ne hne.symm, fun hstdin => ?_,
      hdiffers.options, rfl⟩ hreads
    -- only one of the two reads from the queue
    apply hdiffers.stdin
    rintro rfl
    exact hne (hsound.eq_stdin hstdin).symm
  · refine (b.sameOutside_perform host fd' first.session first.memory).mono fun i hi => ?_
    exact (b.writes_iff hsame hreads i).mp hi

/-- Of two numbers at most one is that of a stream. -/
theorem ne_or_ne (hne : fd ≠ fd') (stream : Fd) : fd ≠ stream ∨ fd' ≠ stream := by
  by_cases hfd : fd = stream
  · exact .inr fun hfd' => hne (hfd.trans hfd'.symm)
  · exact .inl hfd

theorem append_comm_of_nil {first first' second second' : List String} (hfirst : first' = first)
    (hsecond : second' = second) (h : first = [] ∨ second = []) :
    first ++ second' = second ++ first' := by
  subst hfirst hsecond
  obtain rfl | rfl := h
  · rw [List.nil_append, List.append_nil]
  · rw [List.nil_append, List.append_nil]

/-- The replies to two calls, one after the other. -/
def inTurn (s : Session) (host : Host) (memory : Memory) (a b : Call) : Reply × Reply :=
  let first := a.perform host s memory
  (first, b.perform host first.session first.memory)

/-- Two operations that are `Independent`, on different descriptors, may be made in either order:
each is answered the same, and memory, session and what has reached the two streams are the same
afterwards. -/
theorem Reachable.operations_commute (hs : s.Reachable) (host : Host) (memory : Memory)
    (hne : fd ≠ fd') (h : a.Independent b memory) :
    let ab := s.inTurn host memory (a.on fd) (b.on fd')
    let ba := s.inTurn host memory (b.on fd') (a.on fd)
    ab.1.answer = ba.2.answer ∧ ab.2.answer = ba.1.answer ∧
      ab.2.memory = ba.2.memory ∧ ab.2.session = ba.2.session ∧
      Event.stdoutTexts (ab.1.events ++ ab.2.events) =
        Event.stdoutTexts (ba.1.events ++ ba.2.events) ∧
      Event.stderrTexts (ab.1.events ++ ab.2.events) =
        Event.stderrTexts (ba.1.events ++ ba.2.events) := by
  intro ab ba
  have hsound := hs.sound
  obtain ⟨hagrees, hplace⟩ := follows hsound hne h host
  obtain ⟨hagrees', hplace'⟩ := follows hsound hne.symm h.symm host
  have hsilent := a.texts_perform host fd hsound memory
  have hsilent' := b.texts_perform host fd' hsound memory
  have hafter : ab.1.session.table.Sound := (hs.perform host (a.on fd) memory).sound
  have hafter' : ba.1.session.table.Sound := (hs.perform host (b.on fd') memory).sound
  refine ⟨hagrees'.answer.symm, hagrees.answer, ?_, ?_, ?_, ?_⟩
  · -- outside the places of the first the memory is known by the second, and the other way round
    refine SameOutside.eq_of_apart hagrees.memory hplace' hplace hagrees'.memory fun i hi hi' => ?_
    exact h.left i hi (.inr hi')
  · refine eq_of_differsAt hne (differsAt_perform hsound a host fd memory)
      (differsAt_perform hafter b host fd' _) (differsAt_perform hsound b host fd' memory)
      (differsAt_perform hafter' a host fd _) hagrees'.entry hagrees.entry ?_ ?_
    · rintro rfl
      exact hagrees'.queue hafter.stdin
    · rintro rfl
      exact hagrees.queue hafter'.stdin
  · -- at most one of the two lets a text out on a stream
    rw [Event.stdoutTexts_append, Event.stdoutTexts_append]
    apply append_comm_of_nil hagrees'.stdout hagrees.stdout
    exact (ne_or_ne hne Fd.stdout).imp hsilent.1 hsilent'.1
  · rw [Event.stderrTexts_append, Event.stderrTexts_append]
    apply append_comm_of_nil hagrees'.stderr hagrees.stderr
    exact (ne_or_ne hne Fd.stderr).imp hsilent.2 hsilent'.2

/-- Of three octets `read` takes all, and `write` lets two others out. The two lists of buffers
stand side by side, and so do the cells for the counts. -/
theorem operations_commute_of_read_and_write :
    let host := Host.ofTree FlatTree.empty
    let memory := Memory.holding 64 [16, 0, 0, 0, 4, 0, 0, 0, 40, 0, 0, 0, 2]
    let s := initial.run [.pushStdin [10, 20, 30]]
    let ab := s.inTurn host memory (.fdRead Fd.stdin 0 1 32) (.fdWrite Fd.stdout 8 1 36)
    let ba := s.inTurn host memory (.fdWrite Fd.stdout 8 1 36) (.fdRead Fd.stdin 0 1 32)
    ba.2.answer = .ok 0 ∧ ba.1.answer = .ok 0 ∧ ab.2.memory = ba.2.memory ∧
      ab.2.session = ba.2.session ∧
      Event.stdoutTexts (ab.1.events ++ ab.2.events) =
        [String.ofList [Char.ofNat 0, Char.ofNat 0]] := by
  intro host memory s ab ba
  let read : Operation := .read 0 1 32
  let write : Operation := .write 8 1 36
  have hlist : Access.readIoVecs 0 1 memory = .ok [⟨16, 4⟩] memory := by rfl
  have hlist' : Access.readIoVecs 8 1 memory = .ok [⟨40, 2⟩] memory := by rfl
  -- where each of the two reads and writes, as intervals
  have hreads (i : Nat) (hi : read.Reads memory i) : i < 8 := hi.2
  have hwrites (i : Nat) (hi : read.Writes memory i) : 16 ≤ i ∧ i < 20 ∨ 32 ≤ i ∧ i < 36 := by
    obtain ⟨_, _, hvectors, v, hv, hcovers⟩ | hcell := hi
    · cases hlist.symm.trans hvectors
      cases List.mem_singleton.mp hv
      exact .inl hcovers
    · exact .inr hcell
  have hreads' (i : Nat) (hi : write.Reads memory i) : 8 ≤ i ∧ i < 16 ∨ 40 ≤ i ∧ i < 42 := by
    obtain harray | ⟨_, _, hvectors, v, hv, hcovers⟩ := hi
    · exact .inl harray
    · cases hlist'.symm.trans hvectors
      cases List.mem_singleton.mp hv
      exact .inr hcovers
  have hwrites' (i : Nat) (hi : write.Writes memory i) : 36 ≤ i ∧ i < 40 := hi
  -- no two of these intervals meet
  have hindependent : read.Independent write memory := by
    constructor
    · rintro i hi (hi' | hi')
      · have := hwrites i hi
        have := hreads' i hi'
        omega
      · have := hwrites i hi
        have := hwrites' i hi'
        omega
    · rintro i hi (hi' | hi')
      · have := hwrites' i hi
        have := hreads i hi'
        omega
      · have := hwrites' i hi
        have := hwrites i hi'
        omega
  have hstdin : ab.1.answer = .ok 0 := by decide
  have hstdout : ba.1.answer = .ok 0 := by decide
  -- so only the answers of one order are left to compute
  obtain ⟨hfirst, -, hmemory, hsession, htexts, -⟩ :=
    (reachable_initial.run [.pushStdin [10, 20, 30]]).operations_commute host memory
      (show Fd.stdin ≠ Fd.stdout by decide) hindependent
  refine ⟨hfirst.symm.trans hstdin, hstdout, hmemory, hsession, htexts.trans ?_⟩
  decide

end Session

end WasiHost
