import WasiHost.Engine.Run
import WasiHost.Proofs.Call.Answer
import WasiHost.Proofs.Call.Reach
import WasiHost.Proofs.Session.Run

/-!
# Host calls by import and by name

There are two ways to a host call. A program comes to it by an import, with the operands of its
machine, and the memory it works on is the one that the program exports; an engine without typed
imports gives its name and raw integers. Both ways lead to the same call, so the program is told the
same status, finds the same memory, and the session and what was let out are the same.

The two ways differ in one point. An import has narrower types than words for the flags of a
descriptor and for the place that a seek counts from, and what does not fit there never becomes a
call: the program is told `inval` at once.

* **`CallName.TooWide`**, **`Request.exists_call_of_types`** — operands of the right types are those
  of a call unless one of them is too wide.
* **`Run.performOn_eq`**, **`Run.sharedFrom_putBack`** — the store of the program holds what the
  call has left of its memory.
* **`Run.Conveys`**, **`Run.callImport_agrees`** — an import passes on what the call replies.
-/

namespace WasiHost

open Wasm Memory

namespace Wasm.Word

/-- The type of a word. -/
def type : Word → ValueType
  | i32 _ => .i32
  | i64 _ => .i64

/-- The raw integer that stands for a word. -/
def toUInt64 : Word → UInt64
  | i32 n => n.toUInt64
  | i64 n => n

end Wasm.Word

/-! ## Operands

The two imports with narrow arguments refuse what does not fit, and all others read their operands
as they are. For each import the operands are matched with its signature. -/

/-- Whether an operand is too wide for the argument that its import makes of it. -/
def CallName.TooWide : CallName → List Word → Prop
  | fdFdstatSetFlags, [_, .i32 flags] => UInt16.size ≤ flags.toNat
  | fdSeek, [_, _, .i32 whence, _] => UInt8.size ≤ whence.toNat
  | _, _ => False

namespace Request

variable {c : CallName} {operands : List Word}

/-- The operands that are `CallName.TooWide` make no call. -/
theorem ofOperands?_of_tooWide (htypes : operands.map Word.type = c.signature.params)
    (hwide : c.TooWide operands) : ofOperands? c operands = some (.refuse .inval) := by
  cases c with
  | fdFdstatSetFlags =>
    match operands, htypes with
    | [.i32 fd, .i32 flags], _ => exact if_neg (Nat.not_lt.mpr hwide)
  | fdSeek =>
    match operands, htypes with
    | [.i32 fd, .i64 offset, .i32 whence, .i32 address], _ =>
      exact if_neg (Nat.not_lt.mpr hwide)
  | _ => exact hwide.elim

/-- `ofOperands?` reads operands of the types of an import as the call with the same integers. -/
theorem exists_call_of_types (htypes : operands.map Word.type = c.signature.params)
    (hwide : ¬ c.TooWide operands) :
    ∃ call : Call, ofOperands? c operands = some (.perform call) ∧ call.name = c ∧
      call.words = operands.map Word.toUInt64 := by
  cases c with
  | argsGet =>
    -- the types leave one shape of the list, and reading it computes
    match operands, htypes with | [.i32 a, .i32 b], _ => exact ⟨.argsGet a b, rfl, rfl, rfl⟩
  | argsSizesGet =>
    match operands, htypes with | [.i32 a, .i32 b], _ => exact ⟨.argsSizesGet a b, rfl, rfl, rfl⟩
  | environGet =>
    match operands, htypes with | [.i32 a, .i32 b], _ => exact ⟨.environGet a b, rfl, rfl, rfl⟩
  | environSizesGet =>
    match operands, htypes with
    | [.i32 a, .i32 b], _ => exact ⟨.environSizesGet a b, rfl, rfl, rfl⟩
  | clockResGet =>
    match operands, htypes with | [.i32 a, .i32 b], _ => exact ⟨.clockResGet a b, rfl, rfl, rfl⟩
  | clockTimeGet =>
    match operands, htypes with
    | [.i32 a, .i64 b, .i32 c], _ => exact ⟨.clockTimeGet a b c, rfl, rfl, rfl⟩
  | fdClose => match operands, htypes with | [.i32 a], _ => exact ⟨.fdClose a, rfl, rfl, rfl⟩
  | fdFdstatGet =>
    match operands, htypes with | [.i32 a, .i32 b], _ => exact ⟨.fdFdstatGet a b, rfl, rfl, rfl⟩
  | fdFdstatSetFlags =>
    match operands, htypes with
    | [.i32 fd, .i32 flags], _ =>
      -- an operand that may be too wide is one that `hwide` speaks of
      exact ⟨.fdFdstatSetFlags fd flags, if_pos (Nat.not_le.mp hwide), rfl, rfl⟩
  | fdPrestatGet =>
    match operands, htypes with | [.i32 a, .i32 b], _ => exact ⟨.fdPrestatGet a b, rfl, rfl, rfl⟩
  | fdPrestatDirName =>
    match operands, htypes with
    | [.i32 a, .i32 b, .i32 c], _ => exact ⟨.fdPrestatDirName a b c, rfl, rfl, rfl⟩
  | fdRead =>
    match operands, htypes with
    | [.i32 a, .i32 b, .i32 c, .i32 d], _ => exact ⟨.fdRead a b c d, rfl, rfl, rfl⟩
  | fdSeek =>
    match operands, htypes with
    | [.i32 fd, .i64 offset, .i32 whence, .i32 address], _ =>
      exact ⟨.fdSeek fd offset.toInt64 whence address, if_pos (Nat.not_le.mp hwide), rfl, rfl⟩
  | fdWrite =>
    match operands, htypes with
    | [.i32 a, .i32 b, .i32 c, .i32 d], _ => exact ⟨.fdWrite a b c d, rfl, rfl, rfl⟩
  | pathFilestatGet =>
    match operands, htypes with
    | [.i32 a, .i32 b, .i32 c, .i32 d, .i32 e], _ =>
      exact ⟨.pathFilestatGet a b c d e, rfl, rfl, rfl⟩
  | pathOpen =>
    match operands, htypes with
    | [.i32 a, .i32 b, .i32 c, .i32 d, .i32 e, .i64 f, .i64 g, .i32 h, .i32 i], _ =>
      exact ⟨.pathOpen a b c d e f g h i, rfl, rfl, rfl⟩
  | procExit => match operands, htypes with | [.i32 a], _ => exact ⟨.procExit a, rfl, rfl, rfl⟩
  | randomGet =>
    match operands, htypes with | [.i32 a, .i32 b], _ => exact ⟨.randomGet a b, rfl, rfl, rfl⟩

end Request

/-! ## Answers

An answer is an integer of 64 bits, and the program is told 32 of them. All answers are small, so
nothing is lost. -/

namespace Call

variable {host : Host} {call : Call} {s : Session} {memory : Memory}

/-- The program is told an answer in full: what `perform` answers fits in a word. -/
theorem toUInt64_toUInt32_answer {answer : UInt64}
    (h : (call.perform host s memory).answer = .ok answer) :
    answer.toUInt32.toUInt64 = answer := by
  cases hrun : call.run host s memory with
  | ok u w =>
    rw [(perform_of_ok hrun).1] at h
    cases h
    cases call <;> rfl
  | error e w =>
    cases e with
    | guest errno =>
      rw [answer_of_error hrun] at h
      cases h
      -- a failure is answered by the code of its number, or by 8
      cases call <;> cases errno <;> rfl
    | fatal error =>
      rw [answer_of_fatal hrun] at h
      cases h

/-- `perform` that fails fatally had no memory to work on, and has made none. -/
theorem detached_of_answer_error {error : FatalError}
    (h : (call.perform host s memory).answer = .error error) :
    memory = .detached ∧ (call.perform host s memory).memory = .detached := by
  cases memory with
  | attached linear =>
    obtain ⟨answer, hanswer, -⟩ := perform_answers host call s linear
    rw [hanswer] at h
    cases h
  | detached => exact ⟨rfl, (sameOutside_perform host call s .detached).eq_detached⟩

end Call

/-! ## Memory

Host calls do not work on the store itself but on the octets taken from it, which are put back
afterwards. If the program exports no memory, they work on none, though it may have one. -/

namespace Run

/-- The memory that host calls of a program work on, by the store of the program. -/
def sharedFrom (module : Module) : Option Store → Memory
  | some store => if exportsMemory module then .attached { bytes := store.bytes } else .detached
  | none => .detached

theorem sharedMemory_eq (run : Run) :
    run.sharedMemory = sharedFrom run.module run.machine.store := rfl

/-- The store of a program after a host call, by what the call has left of guest memory. -/
def putBack (store : Option Store) : Memory → Option Store
  | .attached linear => store.map fun store => { store with bytes := linear.bytes }
  | .detached => store

theorem putBack_none (memory : Memory) : putBack none memory = none := by
  cases memory <;> rfl

/-- `putBack` of what a call leaves of guest memory is all that `sharedFrom` finds there
afterwards. -/
theorem sharedFrom_putBack {place : Nat → Prop} {module : Module} {store : Option Store}
    {memory : Memory} (h : SameOutside place (sharedFrom module store) memory) :
    sharedFrom module (putBack store memory) = memory := by
  cases store with
  | none =>
    cases h
    rfl
  | some store =>
    -- a program without an exported memory keeps its store, and host calls still see none
    by_cases hexports : exportsMemory module = true
    · rw [sharedFrom, if_pos hexports] at h
      obtain ⟨⟨bytes, heapTop⟩, rfl, -, rfl, -⟩ := h.exists_linear
      exact if_pos hexports
    · rw [sharedFrom, if_neg hexports] at h
      cases h
      exact if_neg hexports

/-- `performOn` is the call on `sharedFrom`, with what it has left put back into the store. -/
theorem performOn_eq (host : Host) (module : Module) (call : Call) (session : Session)
    (store : Option Store) :
    let reply := call.perform host session (sharedFrom module store)
    let performed := performOn host module call session store
    performed.1.answer = reply.answer ∧ performed.1.session = reply.session ∧
      performed.1.events = reply.events ∧ performed.2 = putBack store reply.memory := by
  cases store with
  | none => exact ⟨rfl, rfl, rfl, (putBack_none _).symm⟩
  | some store =>
    by_cases hexports : exportsMemory module = true
    · have hsame := Call.sameOutside_perform host call session (.attached { bytes := store.bytes })
      obtain ⟨after, hmemory, -⟩ := hsame.exists_linear
      simp only [performOn, sharedFrom, if_pos hexports, hmemory, putBack, Option.map_some,
        true_and]
    · -- the program has a memory, but the call does not see it
      have hdetached := (Call.sameOutside_perform host call session .detached).eq_detached
      simp only [performOn, sharedFrom, if_neg hexports, hdetached, putBack, true_and]

/-- `callImport` of operands that are those of a call performs that call on the memory of the
program. -/
theorem callImport_of_perform {host : Host} {run : Run} {function : Nat} {operands : List Word}
    {c : CallName} {call : Call} (machine : Machine)
    (htarget : run.targets[function]? = some (.call c))
    (hread : Request.ofOperands? c operands = some (.perform call)) :
    let reply := call.perform host run.session (sharedFrom run.module machine.store)
    run.callImport host function operands machine =
      match reply.answer with
      | .ok answer =>
        { progress := .running { run with
            session := reply.session
            machine := ({ machine with store := putBack machine.store reply.memory } :
              Machine).resume (results c answer) }
          events := reply.events }
      | .error error =>
        (({ run with session := reply.session } : Run).proceed none
          (.failed (.fatal error) machine.trace)).preceded reply.events := by
  intro reply
  obtain ⟨hanswer, hsession, hevents, hstore⟩ :=
    performOn_eq host run.module call run.session machine.store
  have hrequest : request? run.targets function operands = some (c, .perform call) := by
    rw [request?, htarget]
    simp only [hread, Option.map_some]
  simp only [callImport, hrequest]
  rw [hanswer, hsession, hevents, hstore]
  rfl

/-! ## Both ways

An import ends in `Conveys`, or in the refusal of an operand that is too wide. -/

/-- What becomes of a program that waits in `machine` for an import is what the reply to a call
says. If the call answers, the answer is put on the stack, unless the import has no result; host
calls then find the memory that the call has left. If it fails, the run fails with the same error,
and there was no memory to be left. In any case the session and what was let out are those of the
call. -/
structure Conveys (run : Run) (machine : Machine) (c : CallName) (reply : Reply)
    (advance : Advance) : Prop where
  answered : ∀ status, reply.answer = .ok status →
    ∃ (word : UInt32) (after : Machine), word.toUInt64 = status ∧
      advance =
        { progress := .running { run with session := reply.session, machine := after }
          events := reply.events } ∧
      sharedMemory { run with machine := after } = reply.memory ∧
      after = ({ machine with store := putBack machine.store reply.memory } : Machine).resume
        (if c = .procExit then [] else [.i32 word])
  failed : ∀ error, reply.answer = .error error →
    advance =
        (({ run with session := reply.session } : Run).proceed none
          (.failed (.fatal error) machine.trace)).preceded reply.events ∧
      sharedMemory { run with machine := machine } = .detached ∧ reply.memory = .detached

/-- Every import but that of `procExit` has one result. -/
theorem results_eq (c : CallName) (answer : UInt64) :
    results c answer = if c = .procExit then [] else [.i32 answer.toUInt32] := by
  cases c <;> rfl

/-- The operands that `callImport` takes either are those of a call, and then it `Conveys` what the
same call replies when it is given by name, or one of them is `TooWide`, and then the program is
told so and nothing else happens. -/
theorem callImport_agrees (host : Host) (run : Run) (machine : Machine) {function : Nat}
    {operands : List Word} {c : CallName} (htarget : run.targets[function]? = some (.call c))
    (htypes : operands.map Word.type = c.signature.params) :
    (¬ c.TooWide operands →
      run.Conveys machine c
        (Call.dispatch host c.name (operands.map Word.toUInt64) run.session
          (sharedMemory { run with machine := machine }))
        (run.callImport host function operands machine)) ∧
    (c.TooWide operands →
      run.callImport host function operands machine =
        { progress := .running { run with machine := machine.resume [.i32 28] }
          events := [] }) := by
  constructor
  · intro hwide
    -- the operands are those of a call, and the name and integers are the same call
    obtain ⟨call, hread, rfl, hwords⟩ := Request.exists_call_of_types htypes hwide
    rw [← hwords, Call.dispatch_words, callImport_of_perform machine htarget hread, sharedMemory_eq]
    constructor
    · intro status hanswer
      simp only [hanswer]
      refine ⟨status.toUInt32, _, Call.toUInt64_toUInt32_answer hanswer, rfl, ?_, ?_⟩
      · exact sharedFrom_putBack (Call.sameOutside_perform host call run.session _)
      · rw [results_eq]
    · intro error hanswer
      simp only [hanswer, true_and]
      -- what fails fatally had no memory, before and after
      exact Call.detached_of_answer_error hanswer
  · intro hwide
    rw [callImport, request?, htarget]
    simp only [Request.ofOperands?_of_tooWide htypes hwide, Option.map_some]
    cases c with
    | fdFdstatSetFlags => rfl
    | fdSeek => rfl
    | _ => exact hwide.elim

/-- A program that asks for the sizes of its arguments finds them in its memory; the `whence` of a
seek is refused if it is no octet. -/
theorem callImport_agrees_of_argument_sizes :
    let host := Host.ofTree FlatTree.empty
    let exporting : Module := { (default : Module) with exports := [("memory", .memory 0)] }
    let run : Run :=
      { (default : Run) with
        module := exporting
        targets := [.call .argsSizesGet, .call .fdSeek]
        session := Session.initial.withOptions { arguments := ["ab"] } }
    let machine := idle (some { bytes := Octets.zeros 8, most := 1 })
    (∃ after : Machine,
      run.callImport host 0 [.i32 0, .i32 4] machine =
        { progress := .running { run with machine := after }, events := [] } ∧
      after.current.operands = [.i32 0] ∧
      (sharedMemory { run with machine := after }).readU32 0 = .ok 1 ∧
      (sharedMemory { run with machine := after }).readU32 4 = .ok 3) ∧
    run.callImport host 1 [.i32 3, .i64 0, .i32 256, .i32 0] machine =
      { progress := .running { run with machine := machine.resume [.i32 28] }, events := [] } := by
  intro host exporting run machine
  constructor
  · let reply := Call.dispatch host "args_sizes_get" [0, 4] run.session
      (sharedMemory { run with machine := machine })
    have hconveys : run.Conveys machine .argsSizesGet reply
        (run.callImport host 0 [.i32 0, .i32 4] machine) :=
      -- what the import conveys is known from the reply, which can be computed
      (@callImport_agrees host run machine 0 [.i32 0, .i32 4] .argsSizesGet rfl rfl).1 not_false
    have hanswer : reply.answer = .ok 0 := by decide
    have hsession : reply.session = run.session := by decide
    have hevents : reply.events = [] := by decide
    have hcount : reply.memory.readU32 0 = .ok 1 := by decide
    have htotal : reply.memory.readU32 4 = .ok 3 := by decide
    obtain ⟨word, after, hword, hadvance, hmemory, hafter⟩ := hconveys.answered 0 hanswer
    obtain rfl : word = 0 := UInt32.toUInt64_inj.mp hword
    rw [hsession, hevents] at hadvance
    exact ⟨after, hadvance, by rw [hafter]; rfl, hmemory ▸ hcount, hmemory ▸ htotal⟩
  · -- a `whence` of 256 is no octet
    exact (@callImport_agrees host run machine 1 [.i32 3, .i64 0, .i32 256, .i32 0] .fdSeek
      rfl rfl).2 (Nat.le_refl 256)

/-- Without the exception the two ways do not agree: flags that are no half word are refused with 28
by `callImport` and with 8 by `dispatch`. -/
theorem not_callImport_conveys_dispatch :
    ¬ ∀ (host : Host) (run : Run) (machine : Machine) (function : Nat) (operands : List Word)
      (c : CallName), run.targets[function]? = some (.call c) →
      operands.map Word.type = c.signature.params →
      run.Conveys machine c
        (Call.dispatch host c.name (operands.map Word.toUInt64) run.session
          (sharedMemory { run with machine := machine }))
        (run.callImport host function operands machine) := by
  intro h
  let run : Run :=
    { (default : Run) with targets := [.call .fdFdstatSetFlags], session := Session.initial }
  have hconveys := h (Host.ofTree FlatTree.empty) run (idle none) 0 [.i32 3, .i32 65536]
    .fdFdstatSetFlags rfl rfl
  obtain ⟨word, after, hword, hadvance, -, hafter⟩ := hconveys.answered 8 (by decide)
  obtain rfl : word = 8 := UInt32.toUInt64_inj.mp hword
  -- but 28 is on the stack
  have hrun := Progress.running.inj (congrArg Advance.progress hadvance)
  have hoperands : [Word.i32 28] = after.current.operands :=
    congrArg (fun run => run.machine.current.operands) hrun
  rw [hafter] at hoperands
  exact absurd hoperands (by decide)

end Run

end WasiHost
