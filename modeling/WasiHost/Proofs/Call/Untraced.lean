import WasiHost.Call.Perform
import WasiHost.Proofs.Call.Open

/-!
# Calls do not know whether they are traced

No body looks at the option that turns tracing on, and none writes to the trace. So a body on a
session and on the same session with tracing off goes the same way, and what the trace adds
afterwards is one line that is read off what the body has left.

* **`Session.untraced`**, **`Event.untraced`** — a session with tracing off, and what is let out
  besides the trace.
* **`Action.Blind`** — a body goes the same way with tracing off, and writes nothing to the trace.
* **`Call.blind_body`** — every body is so.
* **`Call.untraced_perform`** — the reply to a call, apart from the trace, is the reply with tracing
  off.
* **`Call.countP_isTrace_perform`** — a call that is traced leaves one line.
-/

namespace WasiHost

/-- What is let out besides the trace. -/
def Event.untraced (events : List Event) : List Event :=
  events.filter fun event => !event.isTrace

theorem Event.untraced_append (events events' : List Event) :
    untraced (events ++ events') = untraced events ++ untraced events' :=
  List.filter_append _ _

theorem Event.untraced_eq_self {events : List Event}
    (h : ∀ event ∈ events, event.isTrace = false) : untraced events = events :=
  List.filter_eq_self.mpr fun event hevent => by rw [h event hevent]; rfl

theorem Event.countP_isTrace_eq_zero {events : List Event}
    (h : ∀ event ∈ events, event.isTrace = false) : events.countP isTrace = 0 :=
  List.countP_eq_zero.mpr fun event hevent => by simp [h event hevent]

/-- The reply without the trace, and with tracing off from then on. -/
def Reply.untraced (reply : Reply) : Reply :=
  { reply with session := reply.session.untraced, events := Event.untraced reply.events }

/-- A workspace and the same with tracing off, as long as nothing is in the trace. -/
inductive Workspace.Untraces (w : Workspace) : Workspace → Prop where
  | intro (h : ∀ event ∈ w.events, event.isTrace = false) :
      Untraces w { w with session := w.session.untraced }

namespace Action

variable {α : Type}

/-- A body goes the same way with tracing off, and writes nothing to the trace. -/
abbrev Blind (x : Action α) : Prop :=
  Respects Workspace.Untraces x

/-! ## Steps

Each step takes a workspace and the same with tracing off to such a pair again. -/

/-- `access` does not get to see the session. -/
theorem blind_access (x : Access α) : Blind (access x) := by
  rintro w _ ⟨h⟩
  unfold access
  dsimp only
  cases x w.memory with
  | ok a memory => exact .ok a (.intro h)
  | error e memory => exact .error e (.intro h)

/-- `look` may ask for what is there with tracing off as well. -/
theorem blind_look {f : Session → α} (hf : ∀ s : Session, f s.untraced = f s) :
    Blind (look f) := by
  rintro w _ ⟨h⟩
  unfold look
  rw [← hf w.session]
  exact .ok _ (.intro h)

/-- `change` of the session that leaves the options alone is the same with tracing off. -/
theorem blind_change {f : Session → Session} (hf : ∀ s, f s.untraced = (f s).untraced) :
    Blind (change f) := by
  rintro w _ ⟨h⟩
  show SameEnd Workspace.Untraces (.ok () _) (.ok () { w with session := f w.session.untraced })
  rw [hf]
  exact .ok () (.intro h)

/-- `emit` may let out what is no record of the trace. -/
theorem blind_emit {event : Event} (hevent : event.isTrace = false) : Blind (emit [event]) := by
  rintro w _ ⟨h⟩
  refine .ok () (.intro fun other hother => ?_)
  obtain hother | hother := List.mem_append.mp hother
  · exact h other hother
  · rwa [List.mem_singleton.mp hother]

/-- `closeDescriptor` tells the log, which is not the trace. -/
theorem blind_closeDescriptor (fd : Fd) : Blind (closeDescriptor fd) := by
  rintro w _ ⟨h⟩
  rw [closeDescriptor_eq, closeDescriptor_eq]
  dsimp only [Session.untraced]
  cases hclose : w.session.table.close fd with
  | error errno => exact .error _ (.intro h)
  | ok closed =>
    obtain ⟨table, records⟩ := closed
    refine .ok () (.intro fun event hevent => ?_)
    -- the log is told at most that the number was given back
    obtain ⟨_, _, ⟨_, _, rfl⟩ | ⟨_, _, rfl⟩⟩ := DescriptorTable.close_eq_ok_iff.mp hclose
    · exact h event (by simpa using hevent)
    · obtain hevent | hevent := List.mem_append.mp hevent
      · exact h event hevent
      · cases List.mem_singleton.mp hevent
        rfl

/-- `Blind` holds of every step that bodies are made of. -/
theorem blind_pervades : Pervades Blind where
  toSequential := Respects.sequential _
  look := blind_look
  access _ := blind_access _
  changeTable _ := blind_change fun _ => rfl
  takeQueued _ := blind_change fun _ => rfl
  emit _ := blind_emit
  closeDescriptor := blind_closeDescriptor
  reveal _ _ := .reveal (blind_access _) (blind_closeDescriptor _)

end Action

namespace Call

open WasiHost.Action

/-- No `body` looks at `enableTrace`, or writes to the trace. -/
theorem blind_body (host : Host) (call : Call) : Blind (call.body host) :=
  blind_pervades.body host fun _ _ =>
    (Respects.sequential _).procExit (fun _ => blind_emit) (blind_change fun _ => rfl)

/-! ## What the trace adds

The line of the trace is added by `Call.reply`, after the body has ended. So a reply is the reply
with tracing off and that line. -/

theorem enabled_foldl_arg (texts : List String) (trace : Trace) :
    (texts.foldl Trace.arg trace).enabled = trace.enabled := by
  induction texts generalizing trace with
  | nil => rfl
  | cons text rest ih =>
    rw [List.foldl_cons, ih]
    unfold Trace.arg
    split
    · cases trace.phase <;> rfl
    · rfl

/-- `trace` is one record if tracing is on, and otherwise none. -/
theorem trace_eq (call : Call) (enabled : Bool) (memory : Memory)
    (outcome : Except CallError Unit) :
    ∃ text, call.trace enabled memory outcome =
      if enabled then [{ level := .info, source := .trace, text := text }] else [] := by
  have henabled := enabled_foldl_arg (call.shownArguments memory outcome.toBool)
    (Trace.start enabled call.name.name)
  unfold trace Trace.finish
  dsimp only
  rw [henabled]
  cases enabled with
  | true => exact ⟨_, rfl⟩
  | false => exact ⟨"", rfl⟩

theorem untraced_trace (call : Call) (enabled : Bool) (memory : Memory)
    (outcome : Except CallError Unit) :
    Event.untraced ((call.trace enabled memory outcome).map .log) = [] := by
  obtain ⟨text, h⟩ := call.trace_eq enabled memory outcome
  rw [h]
  cases enabled <;> rfl

theorem countP_isTrace_trace (call : Call) (enabled : Bool) (memory : Memory)
    (outcome : Except CallError Unit) :
    ((call.trace enabled memory outcome).map Event.log).countP Event.isTrace =
      if enabled then 1 else 0 := by
  obtain ⟨text, h⟩ := call.trace_eq enabled memory outcome
  rw [h]
  cases enabled <;> rfl

theorem trace_false (call : Call) (memory : Memory) (outcome : Except CallError Unit) :
    call.trace false memory outcome = [] := by
  obtain ⟨_, h⟩ := call.trace_eq false memory outcome
  exact h

theorem isTrace_complaint (call : Call) (error : CallError) :
    Event.isTrace (.log (call.complaint error)) = false := by
  cases error <;> rfl

/-- `reply` adds records to the trace and nothing else, however the body ends. -/
theorem untraced_reply (call : Call) (enabled : Bool)
    {ended ended' : EStateM.Result CallError Workspace Unit}
    (h : SameEnd Workspace.Untraces ended ended') :
    (call.reply enabled ended).untraced = call.reply false ended' := by
  cases h with
  | ok _ h =>
    obtain ⟨hevents⟩ := h
    simp [reply, Reply.untraced, Event.untraced_append, Event.untraced_eq_self hevents,
      untraced_trace, trace_false]
  | error error h =>
    obtain ⟨hevents⟩ := h
    have hcomplaint :
        Event.untraced [.log (call.complaint error)] = [.log (call.complaint error)] :=
      Event.untraced_eq_self (by simp [isTrace_complaint])
    simp [reply, Reply.untraced, Event.untraced_append, Event.untraced_eq_self hevents,
      untraced_trace, trace_false, hcomplaint]

/-- `reply` of a traced call has one record in the trace, however the body ends. -/
theorem countP_isTrace_reply (call : Call) (enabled : Bool)
    {ended ended' : EStateM.Result CallError Workspace Unit}
    (h : SameEnd Workspace.Untraces ended ended') :
    (call.reply enabled ended).events.countP Event.isTrace = if enabled then 1 else 0 := by
  -- the log line of a failure comes after the trace and is none of it
  have hcomplaint (error : CallError) :
      [Event.log (call.complaint error)].countP Event.isTrace = 0 := by
    rw [List.countP_singleton, isTrace_complaint, if_neg Bool.false_ne_true]
  cases h with
  | ok _ h =>
    obtain ⟨hevents⟩ := h
    show List.countP Event.isTrace (_ ++ _) = _
    rw [List.countP_append, Event.countP_isTrace_eq_zero hevents, countP_isTrace_trace,
      Nat.zero_add]
  | error error h =>
    obtain ⟨hevents⟩ := h
    show List.countP Event.isTrace (_ ++ _ ++ _) = _
    rw [List.countP_append, List.countP_append, Event.countP_isTrace_eq_zero hevents,
      countP_isTrace_trace, hcomplaint, Nat.zero_add, Nat.add_zero]

variable (host : Host) (call : Call) (s : Session) (memory : Memory)

theorem untraces_begin :
    Workspace.Untraces { session := s, memory := memory, events := [] }
      { session := s.untraced, memory := memory, events := [] } :=
  .intro (by simp)

/-- The reply of `perform`, apart from the trace, is the reply with tracing off. -/
theorem untraced_perform :
    (call.perform host s memory).untraced = call.perform host s.untraced memory :=
  call.untraced_reply _ (blind_body host call _ _ (untraces_begin s memory))

/-- `perform` leaves one record in the trace if `enableTrace` is set, and otherwise none. -/
theorem countP_isTrace_perform :
    (call.perform host s memory).events.countP Event.isTrace =
      if s.options.enableTrace then 1 else 0 :=
  call.countP_isTrace_reply _ (blind_body host call _ _ (untraces_begin s memory))

end Call

end WasiHost
