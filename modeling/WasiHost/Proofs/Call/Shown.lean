import WasiHost.Proofs.Call.Reach
import WasiHost.Proofs.Call.Untraced
import WasiHost.Proofs.Call.Write
import WasiHost.Proofs.Memory.Locality
import WasiHost.Proofs.Text.CString

/-!
# What the trace shows of octets that were moved

The trace does not see the octets on their way. After the call it looks at the memory again: it
reads the count in its cell, decodes the list of buffers once more, gathers them all and cuts what
it has at the count. If no buffer overlaps another, the list or the cell, that gives back what was
moved, however far the buffers were filled. But all buffers are gathered, also those behind the end
of the source, and a read does not look at those. So a read can succeed over buffers that lie
outside, and is then shown without its octets.

* **`Trace.stream_eq`** — what is shown depends on the buffers, the list and the cell.
* **`Call.traced_fdRead`**, **`Call.traced_fdWrite`** — the trace of a call that has succeeded.
* **`Session.shows_moved_iff`** — a write is always shown with its octets, and a read exactly if all
  its buffers lie inside. -/

namespace WasiHost

open IoVec LinearMemory Memory

/-- The lines of the trace. -/
def Event.traced (events : List Event) : List Event :=
  events.filter Event.isTrace

theorem Event.traced_append (events events' : List Event) :
    traced (events ++ events') = traced events ++ traced events' :=
  List.filter_append _ _

/-- The buffers of a list, the list and the cell for the count have no index in common. -/
structure LinearMemory.NothingShared (linear : LinearMemory) (buffers count address : UInt32) :
    Prop where
  pairwise : (linear.listAt buffers count).Pairwise Apart
  list : ∀ v ∈ linear.listAt buffers count,
    v.ApartFrom buffers (count.toNat * IoVec.size.toNat)
  cell : ∀ v ∈ linear.listAt buffers count, v.ApartFrom address 4
  listCell : ∀ i, Spans buffers (count.toNat * IoVec.size.toNat) i → ¬ Spans address 4 i

namespace Trace

/-- How the octets of a stream call are shown, if all buffers lie inside and if not. -/
def shown (inside : Prop) [Decidable inside] (bytes : Bytes) : String :=
  if inside then quote bytes streamLimit else "BAD_IOVEC"

/-- The line of a stream call that has succeeded. -/
def streamLine (name : CallName) (fd : Fd) (argument : String) (moved : Nat) : Event :=
  .log
    { level := .info
      source := .trace
      text := name.name ++ "(" ++ toString fd ++ ", " ++ argument ++ ", " ++ toString moved ++
        ") = Success" }

/-- `Trace.stream` reads the cell, the list and the buffers, and shows the octets up to the
count. -/
theorem stream_eq {linear : LinearMemory} {buffers count cell moved : UInt32}
    (hcount : (attached linear).readU32 cell = .ok moved)
    (harray : Access.ArrayInside linear buffers count) :
    stream (.attached linear) buffers count cell =
      shown (∀ v ∈ linear.listAt buffers count, InRange v.buf v.len linear.bytes.size)
        ((linear.gathered (linear.listAt buffers count)).take moved.toNat) := by
  have hread : Access.readIoVecs buffers count (.attached linear) =
      .ok (linear.listAt buffers count) (.attached linear) :=
    Access.readIoVecs_eq_ok_iff_arrayInside.mpr ⟨harray, rfl, rfl⟩
  simp only [stream, hcount, hread, shown]
  -- one buffer outside is enough to hide the others
  by_cases hinside : ∀ v ∈ linear.listAt buffers count, InRange v.buf v.len linear.bytes.size
  · rw [if_pos hinside, gather_eq_ok_iff.mpr ⟨hinside, rfl⟩]
  · rw [if_neg hinside]
    cases hgather : (attached linear).gather (linear.listAt buffers count) with
    | ok bytes => exact absurd (gather_eq_ok_iff.mp hgather).1 hinside
    | error e => rfl

/-- `shown` is a quote exactly if the buffers lie inside: no octets are quoted as what stands for
buffers outside. -/
theorem shown_eq_quote_iff {inside : Prop} [Decidable inside] {bytes : Bytes} :
    shown inside bytes = quote bytes streamLimit ↔ inside := by
  unfold shown
  split
  · next h => exact iff_of_true rfl h
  · next h =>
    refine iff_of_false (fun heq => ?_) h
    have hfirst := congrArg List.head? (congrArg String.toList heq)
    rw [toList_quote, List.cons_append, List.head?_cons] at hfirst
    exact absurd hfirst (by decide)

/-- `streamLine` of one call differs only in the octets it shows. -/
theorem streamLine_inj {name : CallName} {fd : Fd} {argument argument' : String} {moved : Nat} :
    streamLine name fd argument moved = streamLine name fd argument' moved ↔
      argument = argument' := by
  constructor
  · intro h
    simp only [streamLine, Event.log.injEq, LogRecord.mk.injEq, true_and] at h
    have htext := congrArg String.toList h
    simpa only [String.toList_append, List.append_assoc, List.append_cancel_left_eq,
      List.append_cancel_right_eq, String.toList_inj] using htext
  · rintro rfl
    rfl

/-- `shown` of buffers that lie inside depends on their octets alone. -/
theorem shown_congr {inside : Prop} [Decidable inside] {bytes bytes' : Bytes}
    (h : inside → bytes = bytes') : shown inside bytes = shown inside bytes' := by
  unfold shown
  split
  · next hinside => rw [h hinside]
  · rfl

end Trace

/-- `Serves` is the beginning of the `source`, as far as there is room. -/
theorem Session.Serves.eq_take {host : Host} {s s' : Session} {fd : Fd} {vectors : List IoVec}
    {data : Bytes} (h : s.Serves host fd vectors data s') :
    data = (s.source host fd).take (room vectors) := by
  cases h with
  | stdin k hget hk =>
    have hsource : s.source host fd = s.stdin := by rw [source, hget]
    -- as many octets as there are and as there is room for
    rw [hsource, hk, List.take_eq_take_iff]
    omega
  | file path offset content status bytes moved hget hbytes hmoved =>
    have hsource : s.source host fd = bytes.drop offset.toNat := by
      rw [source, hget]
      simp only [hbytes, Option.getD_some]
    rw [hsource, hmoved, List.take_eq_take_iff, List.length_drop]
    omega

/-- `buffers?` are the entries of the array. -/
theorem Memory.list_of_buffers? {linear : LinearMemory} {buffers count address : UInt32}
    {vectors : List IoVec}
    (h : (attached linear).buffers? buffers count address = some vectors) :
    Access.ArrayInside linear buffers count ∧ vectors = linear.listAt buffers count := by
  obtain ⟨_, hread⟩ := Action.readIoVecs_of_buffers? h
  obtain ⟨hinside, heq, -⟩ := Access.readIoVecs_eq_ok_iff_arrayInside.mp hread
  exact ⟨hinside, heq⟩

/-- What `pour` has delivered is gathered again, if all buffers lie inside and are `Apart`. -/
theorem LinearMemory.take_gathered_delivered {linear : LinearMemory} {vectors : List IoVec}
    {address : UInt32} {data : Bytes} (hapart : vectors.Pairwise Apart)
    (hcell : ∀ v ∈ vectors, v.ApartFrom address 4) (hroom : data.length ≤ room vectors)
    (haddress : address.toNat + 4 ≤ linear.bytes.size)
    (hinside : ∀ v ∈ vectors, InRange v.buf v.len linear.bytes.size) :
    (((linear.pour vectors data).write address
      (LittleEndian.encode 4 data.length)).gathered vectors).take data.length = data := by
  have hfit : address.toNat + (LittleEndian.encode 4 data.length).length ≤
      (linear.pour vectors data).bytes.size := by
    rwa [LittleEndian.length_encode, size_pour]
  -- the count that is stored afterwards lies in none of the buffers
  have hkept : ((linear.pour vectors data).write address
      (LittleEndian.encode 4 data.length)).gathered vectors =
      (linear.pour vectors data).gathered vectors := by
    refine gathered_congr fun v hv i hi => Octets.octetAt_write_of_not_mem _ hfit ?_
    rw [LittleEndian.length_encode]
    exact hcell v hv i hi
  rw [hkept, gathered_pour hapart hinside, List.take_of_length_le hroom, List.take_left]

/-- A call that keeps to its buffers and its cell leaves the list as it was, so `stream` shows the
same buffers. -/
theorem Trace.stream_of_kept {linear after : LinearMemory} {buffers count address moved : UInt32}
    (hshared : linear.NothingShared buffers count address)
    (harray : Access.ArrayInside linear buffers count)
    (hcount : (attached after).readU32 address = .ok moved)
    (hsame : SameOutside
      (fun i => Spans address 4 i ∨ ∃ v ∈ linear.listAt buffers count, v.Covers i)
      (.attached linear) (.attached after)) :
    stream (.attached after) buffers count address =
      shown (∀ v ∈ linear.listAt buffers count, InRange v.buf v.len linear.bytes.size)
        ((after.gathered (linear.listAt buffers count)).take moved.toNat) := by
  have hlist : after.listAt buffers count = linear.listAt buffers count := by
    apply hsame.listAt_eq
    rintro i hi (hplace | ⟨v, hv, hplace⟩)
    · exact hshared.listCell i hi hplace
    · exact hshared.list v hv i hplace hi
  -- the memory keeps its size, and with it the array stays inside
  obtain ⟨_, hafter, hsize, -, -⟩ := hsame.exists_linear
  cases hafter
  have harray' : Access.ArrayInside after buffers count := by rwa [Access.ArrayInside, hsize]
  rw [stream_eq hcount harray', hlist]
  simp only [hsize]

namespace Call

variable {host : Host} {call : Call} {s : Session} {linear : LinearMemory} {memory : Memory}
  {w : Workspace} {fd : Fd} {buffers count address moved : UInt32}

/-- The trace of a call that has succeeded is `call.trace` of the memory it has left. -/
theorem traced_of_ok (htrace : s.options.enableTrace = true)
    (h : call.run host s memory = .ok () w) (hevents : ∀ event ∈ w.events, event.isTrace = false) :
    Event.traced (call.perform host s memory).events =
      (call.trace true w.memory (.ok ())).map .log := by
  -- what the body has let out is no trace, so the line of the call stands alone
  have hbefore : Event.traced w.events = [] :=
    List.filter_eq_nil_iff.mpr fun event hevent => by simp [hevents event hevent]
  obtain ⟨text, hline⟩ := call.trace_eq true w.memory (.ok ())
  unfold run at h
  unfold perform
  rw [h]
  show Event.traced (w.events ++ (call.trace s.options.enableTrace w.memory (.ok ())).map .log) = _
  rw [htrace, Event.traced_append, hbefore, hline]
  rfl

/-- `trace` of a call that shows octets and their count is a `streamLine`. -/
theorem trace_of_shown (hcount : memory.readU32 address = .ok moved)
    (hshown : call.shownArguments memory true =
      [toString fd, Trace.stream memory buffers count address, Trace.word32 memory address]) :
    (call.trace true memory (.ok ())).map Event.log =
      [Trace.streamLine call.name fd (Trace.stream memory buffers count address) moved.toNat] := by
  have hword : Trace.word32 memory address = toString moved.toNat := by
    rw [Trace.word32, hcount]
    rfl
  have hend (line : String) : line ++ ") = " ++ "Success" = line ++ ") = Success" :=
    String.append_assoc
  -- the three arguments are the descriptor, the octets and the count, which the line names apart
  have htrace : call.trace true memory (.ok ()) =
      [{ level := .info
         source := .trace
         text := call.name.name ++ "(" ++ toString fd ++ ", " ++
           Trace.stream memory buffers count address ++ ", " ++ Trace.word32 memory address ++
           ") = " ++ "Success" }] := by
    unfold trace
    dsimp only [Except.toBool]
    rw [hshown]
    rfl
  rw [htrace, hend, hword]
  rfl

/-- `traced` of an `fdRead` that has succeeded, and what it was served. -/
theorem traced_fdRead (htrace : s.options.enableTrace = true)
    (hshared : linear.NothingShared buffers count address)
    (hzero : ((fdRead fd buffers count address).perform host s (.attached linear)).answer = .ok 0) :
    s.Serves host fd (linear.listAt buffers count)
        ((s.source host fd).take (room (linear.listAt buffers count)))
        ((fdRead fd buffers count address).perform host s (.attached linear)).session ∧
      Event.traced ((fdRead fd buffers count address).perform host s (.attached linear)).events =
        [Trace.streamLine .fdRead fd
          (Trace.shown (∀ v ∈ linear.listAt buffers count, InRange v.buf v.len linear.bytes.size)
            ((s.source host fd).take (room (linear.listAt buffers count))))
          ((s.source host fd).take (room (linear.listAt buffers count))).length] := by
  obtain ⟨w, hrun⟩ := run_of_answer_eq_zero rfl hzero
  obtain ⟨hevents, vectors, data, hbuffers, hserves, hdelivers⟩ := Action.fdRead_eq_ok hrun
  obtain ⟨harray, rfl⟩ := Memory.list_of_buffers? hbuffers
  obtain rfl := hserves.eq_take
  obtain ⟨_, hlinear, haddress⟩ := check_eq_ok_iff.mp (Action.check_of_buffers? hbuffers)
  cases hlinear
  obtain ⟨_, hlinear, hafter⟩ := hdelivers.poured
  cases hlinear
  -- the cell and the parts of the buffers that were filled are all that was written to
  have hsame : SameOutside
      (fun i => Spans address 4 i ∨ ∃ v ∈ linear.listAt buffers count, v.Covers i)
      (.attached linear) w.memory := by
    rw [← (perform_of_ok hrun).2.2]
    refine (sameOutside_perform host _ s (.attached linear)).mono fun i hi => hi.imp_right ?_
    rintro ⟨vectors, hvectors, v, hv, hcovers⟩
    obtain rfl := (Memory.list_of_buffers? hvectors).2
    obtain ⟨v', hmem, hsub⟩ := exists_mem_of_mem_filled hv
    exact ⟨v', hmem, hsub i hcovers⟩
  have hcount := hdelivers.count
  rw [hafter] at hsame hcount
  have hmoved := UInt32.toNat_ofNat_of_lt' hdelivers.length_lt
  refine ⟨(perform_of_ok hrun).2.1 ▸ hserves, ?_⟩
  rw [traced_of_ok htrace hrun (by simp [hevents]), hafter, trace_of_shown hcount rfl,
    Trace.stream_of_kept hshared harray hcount hsame, hmoved]
  congr 2
  exact Trace.shown_congr fun hinside =>
    take_gathered_delivered hshared.pairwise hshared.cell (List.length_take_le _ _) haddress hinside

/-- What a write sends is no record of the trace: `isTrace` is false. -/
theorem isTrace_of_sent {d : Descriptor} {data : Bytes} {event : Event}
    (h : d.sent? data = some event) : event.isTrace = false := by
  cases d with
  | stdin | preopened _ | directory _ _ => cases h
  | stdout | stderr | file _ _ _ _ =>
    cases h
    rfl

/-- `traced` of an `fdWrite` that has succeeded. -/
theorem traced_fdWrite (htrace : s.options.enableTrace = true)
    (hshared : linear.NothingShared buffers count address)
    (hzero :
      ((fdWrite fd buffers count address).perform host s (.attached linear)).answer = .ok 0) :
    Event.traced ((fdWrite fd buffers count address).perform host s (.attached linear)).events =
      [Trace.streamLine .fdWrite fd
        (Trace.quote (linear.gathered (linear.listAt buffers count)) Trace.streamLimit)
        (linear.gathered (linear.listAt buffers count)).length] := by
  obtain ⟨w, hrun⟩ := run_of_answer_eq_zero rfl hzero
  obtain ⟨harray, haddress, hinside, htotal, d, event, -, hsent, rfl⟩ :=
    (Action.fdWrite_eq_ok_iff_arrayInside rfl).mp hrun
  have hmoved := UInt32.toNat_ofNat_of_lt' htotal
  have hstored : Access.writeU32 address (UInt32.ofNat (room (linear.listAt buffers count)))
      (.attached linear) = .ok () (.attached (linear.write address
        (LittleEndian.encode 4 (room (linear.listAt buffers count))))) :=
    Access.writeU32_eq_ok_iff.mpr ⟨haddress, by rw [hmoved]⟩
  have hcount := Access.readU32_of_writeU32 hstored
  -- the write itself has only touched its cell, which no buffer overlaps
  have hcell := (Access.reachesOnly_writeU32 address _).ok hstored
  have hkept : (linear.write address (LittleEndian.encode 4
      (room (linear.listAt buffers count)))).gathered (linear.listAt buffers count) =
      linear.gathered (linear.listAt buffers count) := by
    obtain ⟨_, hafter, -, -, hoctets⟩ := hcell.exists_linear
    cases hafter
    exact gathered_congr fun v hv i hi => hoctets i (hshared.cell v hv i hi)
  have hquote :
      Trace.shown (∀ v ∈ linear.listAt buffers count, InRange v.buf v.len linear.bytes.size)
      (linear.gathered (linear.listAt buffers count)) = _ := Trace.shown_eq_quote_iff.mpr hinside
  rw [traced_of_ok htrace hrun (by simp [isTrace_of_sent hsent]), trace_of_shown hcount rfl,
    Trace.stream_of_kept hshared harray hcount (hcell.mono fun i => .inl), hmoved, hkept,
    List.take_of_length_le (Nat.le_of_eq (length_gathered linear _)), hquote, length_gathered]
  rfl

end Call

namespace Session

/-- `fdWrite` that succeeds is shown with the octets of its buffers. `fdRead` that succeeds is shown
with the octets it was served exactly if all its buffers lie inside, and otherwise without any. -/
theorem shows_moved_iff {s : Session} (htrace : s.options.enableTrace = true) (host : Host)
    {linear : LinearMemory} (fd : Fd) {buffers count address : UInt32}
    (hshared : linear.NothingShared buffers count address) :
    let vectors := linear.listAt buffers count
    let read := (Call.fdRead fd buffers count address).perform host s (.attached linear)
    let write := (Call.fdWrite fd buffers count address).perform host s (.attached linear)
    let served := (s.source host fd).take (room vectors)
    (read.answer = .ok 0 →
      s.Serves host fd vectors served read.session ∧
      (Event.traced read.events =
          [Trace.streamLine .fdRead fd (Trace.quote served Trace.streamLimit) served.length] ↔
        ∀ v ∈ vectors, InRange v.buf v.len linear.bytes.size) ∧
      ((¬ ∀ v ∈ vectors, InRange v.buf v.len linear.bytes.size) →
        Event.traced read.events =
          [Trace.streamLine .fdRead fd "BAD_IOVEC" served.length])) ∧
    (write.answer = .ok 0 →
      Event.traced write.events =
        [Trace.streamLine .fdWrite fd (Trace.quote (linear.gathered vectors) Trace.streamLimit)
          (linear.gathered vectors).length]) := by
  intro vectors read write served
  refine ⟨fun hzero => ?_, Call.traced_fdWrite htrace hshared⟩
  obtain ⟨hserves, htraced⟩ := Call.traced_fdRead htrace hshared hzero
  refine ⟨hserves, ?_, fun houtside => ?_⟩
  · rw [htraced, List.cons.injEq, Trace.streamLine_inj, Trace.shown_eq_quote_iff]
    exact and_iff_left rfl
  · rw [htraced, Trace.shown, if_neg houtside]

/-- The memory of a list of two buffers: the first is at 16 and takes four octets, as the second
does. -/
def memoryOfTwo (second : UInt32) : LinearMemory :=
  { bytes := (Octets.zeros 64).write 0 (IoVec.pack ⟨16, 4⟩ ++ IoVec.pack ⟨second, 4⟩) }

/-- `memoryOfTwo` has its second buffer anywhere behind the cell. -/
theorem nothingShared_memoryOfTwo {second : UInt32}
    (hlist : (memoryOfTwo second).listAt 0 2 = [⟨16, 4⟩, ⟨second, 4⟩])
    (hsecond : 36 ≤ second.toNat) : (memoryOfTwo second).NothingShared 0 2 32 := by
  -- four intervals: the list below 16, the first buffer, the cell, the second buffer
  have hfirst : ∀ i, (⟨16, 4⟩ : IoVec).Covers i ↔ 16 ≤ i ∧ i < 20 := fun i => Iff.rfl
  have hother : ∀ i, (⟨second, 4⟩ : IoVec).Covers i → 36 ≤ i := fun i hi => hsecond.trans hi.1
  have harray : ∀ i, Spans 0 ((2 : UInt32).toNat * IoVec.size.toNat) i → i < 16 :=
    fun i hi => hi.2
  have hcell : ∀ i, Spans 32 4 i → 32 ≤ i ∧ i < 36 := fun i hi => hi
  refine ⟨?_, ?_, ?_, ?_⟩
  · rw [hlist, List.pairwise_pair]
    intro i hi hsecond
    have := (hfirst i).mp hi
    have := hother i hsecond
    omega
  · rw [hlist, List.forall_mem_cons, List.forall_mem_singleton]
    constructor
    · intro i hi hspans
      have := (hfirst i).mp hi
      have := harray i hspans
      omega
    · intro i hi hspans
      have := hother i hi
      have := harray i hspans
      omega
  · rw [hlist, List.forall_mem_cons, List.forall_mem_singleton]
    constructor
    · intro i hi hspans
      have := (hfirst i).mp hi
      have := hcell i hspans
      omega
    · intro i hi hspans
      have := hother i hi
      have := hcell i hspans
      omega
  · intro i hi hspans
    have := harray i hi
    have := hcell i hspans
    omega

/-- Two octets fill a part of the first buffer, and `fdRead` succeeds. But the second buffer lies
outside, so they are not shown. -/
theorem not_shows_moved :
    let host := Host.ofTree .empty
    let s := (initial.withOptions { enableTrace := true }).pushStdin [0x61, 0x62]
    let reply := (Call.fdRead Fd.stdin 0 2 32).perform host s (.attached (memoryOfTwo 0xf0000000))
    s.Reachable ∧ (memoryOfTwo 0xf0000000).NothingShared 0 2 32 ∧ reply.answer = .ok 0 ∧
      reply.memory.slice 16 4 = .ok [0x61, 0x62, 0, 0] ∧ reply.session.stdin = [] ∧
      Event.traced reply.events = [Trace.streamLine .fdRead Fd.stdin "BAD_IOVEC" 2] ∧
      Event.traced reply.events ≠
        [Trace.streamLine .fdRead Fd.stdin (Trace.quote [0x61, 0x62] Trace.streamLimit) 2] := by
  intro host s reply
  refine ⟨⟨[.withOptions { enableTrace := true }, .pushStdin [0x61, 0x62]], rfl⟩,
    nothingShared_memoryOfTwo (by decide) (by decide), by decide, by decide, by decide, by decide,
    by decide⟩

/-- If the second buffer lies inside, the octets are shown, though it takes none of them. -/
theorem shows_moved_of_short_source :
    let s := (initial.withOptions { enableTrace := true }).pushStdin [0x61, 0x62]
    let reply := (Call.fdRead Fd.stdin 0 2 32).perform (.ofTree .empty) s
      (.attached (memoryOfTwo 40))
    s.options.enableTrace = true ∧ (memoryOfTwo 40).NothingShared 0 2 32 ∧ reply.answer = .ok 0 ∧
      Event.traced reply.events =
        [Trace.streamLine .fdRead Fd.stdin (Trace.quote [0x61, 0x62] Trace.streamLimit) 2] := by
  intro s reply
  have hshared : (memoryOfTwo 40).NothingShared 0 2 32 :=
    nothingShared_memoryOfTwo (by decide) (by decide)
  have hzero : reply.answer = .ok 0 := by decide
  have hshows := (shows_moved_iff (s := s) rfl (.ofTree .empty) Fd.stdin hshared).1 hzero
  exact ⟨rfl, hshared, hzero, hshows.2.1.mpr (by decide)⟩

end Session

end WasiHost
