import WasiHost.Proofs.Call.Untraced
import WasiHost.Proofs.Session.Timeless

/-!
# Tracing changes nothing but the trace

Two runs in the same world that differ in nothing but whether tracing is on go the same way: every
answer, memory, text and log line is the same, and so is everything in the sessions apart from that
option. What is in the trace can be told beforehand: one line for each host call executed while
tracing is on.

* **`Deed.untraced`**, **`Outcome.untraced`** — a deed that leaves tracing off, and what comes of a
  deed besides the trace.
* **`Deed.call?`**, **`Deed.traceLines`** — the host call that a deed executes, and how many lines a
  run is to leave in the trace.
* **`Deed.untraced_outcome`** — one deed is the same with tracing on and off.
* **`Session.Reachable.outcomes_untraced`** — and so are runs.
-/

namespace WasiHost

namespace Deed

/-- The deed, leaving tracing off. -/
def untraced : Deed → Deed
  | withOptions options => withOptions options.untraced
  | deed => deed

/-- The host call that is executed, if there is one. -/
def call? : Deed → Option Call
  | perform call => some call
  | dispatch name words => (CallName.ofName? name).bind fun callName => Call.ofWords? callName words
  | _ => none

/-- Whether tracing is on after the deed, given whether it was on. -/
def tracingAfter (tracing : Bool) : Deed → Bool
  | withOptions options => options.enableTrace
  | _ => tracing

/-- How many lines each deed of a run leaves in the trace, given whether tracing is on at first. -/
def traceLines : Bool → List Deed → List Nat
  | _, [] => []
  | tracing, deed :: rest =>
    (if tracing && deed.call?.isSome then 1 else 0) :: traceLines (deed.tracingAfter tracing) rest

end Deed

namespace Outcome

/-- What has come of a deed besides the trace, with tracing off from then on. -/
def untraced (outcome : Outcome) : Outcome :=
  { outcome with
    session := outcome.session.untraced
    events := Event.untraced outcome.events }

/-- How many lines a deed has left in the trace. -/
def traceLines (outcome : Outcome) : Nat :=
  outcome.events.countP Event.isTrace

end Outcome

variable {s s' : Session} {host : Host} {memory : Memory}

/-! ## Calls by name

What cannot be read as a call is refused before anything is traced. -/

namespace Call

/-- The reply of `dispatch`, apart from the trace, is the reply with tracing off. -/
theorem untraced_dispatch (host : Host) (name : String) (words : List UInt64) (s : Session)
    (memory : Memory) :
    (dispatch host name words s memory).untraced =
      dispatch host name words s.untraced memory := by
  rcases dispatch_cases name words with ⟨call, hcall⟩ | ⟨error, hrefused⟩
  · rw [hcall, hcall]
    exact call.untraced_perform host s memory
  · rw [hrefused, hrefused]
    rfl

/-- `dispatch` leaves a record if tracing is on and if it is a call at all. -/
theorem countP_isTrace_dispatch (host : Host) (name : String) (words : List UInt64) (s : Session)
    (memory : Memory) :
    (dispatch host name words s memory).events.countP Event.isTrace =
      if s.options.enableTrace && (Deed.dispatch name words).call?.isSome then 1 else 0 := by
  unfold dispatch Deed.call?
  cases hname : CallName.ofName? name with
  | none => simp [hname]
  | some callName =>
    cases hwords : ofWords? callName words with
    | none => simp [hname, hwords]
    | some call => simp [hname, hwords, call.countP_isTrace_perform]

end Call

/-! ## Deeds

`Call.untraced_perform` for each deed that is a call. All others let nothing out. -/

namespace Deed

/-- `outcome` of a deed besides the trace is what comes of it with tracing off. -/
theorem untraced_outcome (host : Host) (s : Session) (memory : Memory) (deed : Deed) :
    (deed.outcome host s memory).untraced = deed.untraced.outcome host s.untraced memory := by
  cases deed with
  | perform call => exact congrArg replied (call.untraced_perform host s memory)
  | dispatch name words => exact congrArg replied (Call.untraced_dispatch host name words s memory)
  | pushStdin bytes => rfl
  | withOptions options => rfl
  | work f => rfl

/-- How many lines a deed leaves is told by `Deed.call?` and the option. -/
theorem traceLines_outcome (host : Host) (s : Session) (memory : Memory) (deed : Deed) :
    (deed.outcome host s memory).traceLines =
      if s.options.enableTrace && deed.call?.isSome then 1 else 0 := by
  cases deed with
  | perform call =>
    have hlines := call.countP_isTrace_perform host s memory
    rwa [← Bool.and_true s.options.enableTrace] at hlines
  | dispatch name words => exact Call.countP_isTrace_dispatch host name words s memory
  -- what is no call is not traced
  | _ => exact (if_neg (by simp [call?])).symm

/-- `enableTrace` is changed by new options only. -/
theorem enableTrace_outcome (hsound : s.table.Sound) (host : Host) (memory : Memory) (deed : Deed) :
    (deed.outcome host s memory).session.options.enableTrace =
      deed.tracingAfter s.options.enableTrace := by
  cases deed with
  | perform call =>
    exact congrArg Options.enableTrace (Call.options_perform hsound host call memory)
  | dispatch name words =>
    exact congrArg Options.enableTrace (Call.options_dispatch hsound host name words memory)
  | _ => rfl

end Deed

/-! ## Runs

Two inductions on the deeds: one compares a run with the same run with tracing off throughout, the
other counts lines. -/

namespace Session

/-- `outcomes` of a run besides the trace are those with tracing off throughout. By induction on
`deeds`, for every world: the rest of a run is in what is left of it. -/
theorem map_untraced_outcomes (s : Session) (world : Nat → Host) (memory : Memory)
    (deeds : List Deed) :
    (s.outcomes world memory deeds).map Outcome.untraced =
      s.untraced.outcomes world memory (deeds.map Deed.untraced) := by
  induction deeds generalizing s world memory with
  | nil => rfl
  | cons deed rest ih =>
    have hnow := deed.untraced_outcome (world 0) s memory
    -- what the deed leaves is also what it leaves with tracing off
    have hsession := congrArg Outcome.session hnow
    have hmemory := congrArg Outcome.memory hnow
    refine congrArg₂ List.cons hnow ?_
    calc (outcomes (fun n => world (n + 1)) (deed.outcome (world 0) s memory).session
          (deed.outcome (world 0) s memory).memory rest).map Outcome.untraced
        = outcomes (fun n => world (n + 1)) (deed.outcome (world 0) s memory).untraced.session
            (deed.outcome (world 0) s memory).untraced.memory (rest.map Deed.untraced) := ih _ _ _
      _ = outcomes (fun n => world (n + 1))
            (deed.untraced.outcome (world 0) s.untraced memory).session
            (deed.untraced.outcome (world 0) s.untraced memory).memory
            (rest.map Deed.untraced) := by rw [hsession, hmemory]

/-- Each deed of a run leaves as many records in the trace as `Deed.traceLines` tells beforehand. -/
theorem Reachable.map_traceLines_outcomes (hs : s.Reachable) (world : Nat → Host) (memory : Memory)
    (deeds : List Deed) :
    (s.outcomes world memory deeds).map Outcome.traceLines =
      Deed.traceLines s.options.enableTrace deeds := by
  induction deeds generalizing s world memory with
  | nil => rfl
  | cons deed rest ih =>
    have hlater := ih (deed.reachable_outcome hs (world 0) memory) (fun n => world (n + 1))
      (deed.outcome (world 0) s memory).memory
    rw [deed.enableTrace_outcome hs.sound] at hlater
    exact congrArg₂ List.cons (deed.traceLines_outcome (world 0) s memory) hlater

/-- Two runs in one world that differ in nothing but whether tracing is on have the same `outcomes`,
deed by deed, in everything but the trace: answers, sessions, memories, texts and other log records.
In the trace each has one record for each host call that it executes while tracing is on. -/
theorem Reachable.outcomes_untraced (hs : s.Reachable) (hs' : s'.Reachable)
    (hsame : s.untraced = s'.untraced) (world : Nat → Host) (memory : Memory)
    {deeds deeds' : List Deed} (hdeeds : deeds.map Deed.untraced = deeds'.map Deed.untraced) :
    (s.outcomes world memory deeds).map Outcome.untraced =
        (s'.outcomes world memory deeds').map Outcome.untraced ∧
      (s.outcomes world memory deeds).map Outcome.traceLines =
        Deed.traceLines s.options.enableTrace deeds ∧
      (s'.outcomes world memory deeds').map Outcome.traceLines =
        Deed.traceLines s'.options.enableTrace deeds' := by
  refine ⟨?_, hs.map_traceLines_outcomes world memory deeds,
    hs'.map_traceLines_outcomes world memory deeds'⟩
  -- both are the run with tracing off
  rw [map_untraced_outcomes, map_untraced_outcomes, hsame, hdeeds]

/-- A file is opened and closed, between them a call that `dispatch` cannot read and one that fails,
with and without tracing. -/
theorem outcomes_untraced_of_options :
    let world : Nat → Host := fun _ => Host.ofTree (FlatTree.empty.insertFile "/f" [10, 20, 30])
    let deeds (traced : Bool) : List Deed :=
      [.withOptions { enableTrace := traced },
        .perform (.pathOpen Fd.root 0 0 1 0 0 0 0 32),
        .dispatch "fd_close" [4, 5],
        .perform (.fdClose 99),
        .pushStdin [1],
        .dispatch "fd_close" [4]]
    let memory := Memory.holding 128 (utf8 "f")
    let on := initial.outcomes world memory (deeds true)
    let off := initial.outcomes world memory (deeds false)
    off.map Outcome.answer =
        [none, some (.ok 0), some (.error (.badArguments .fdClose)),
          some (.ok ErrNo.badF.code.toUInt64), none, some (.ok 0)] ∧
      on.map Outcome.untraced = off.map Outcome.untraced ∧
      on.map Outcome.traceLines = [0, 1, 0, 1, 0, 1] ∧
      off.map Outcome.traceLines = [0, 0, 0, 0, 0, 0] := by
  intro world deeds memory on off
  exact ⟨by decide +kernel,
    reachable_initial.outcomes_untraced reachable_initial rfl world memory rfl⟩

end Session

end WasiHost
