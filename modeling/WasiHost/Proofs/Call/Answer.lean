import WasiHost.Proofs.Call.Outcome
import WasiHost.Proofs.Call.Words

/-!
# What a call answers

A call with a memory to work on always answers the guest. Each of its steps fails, if it fails, with
an error number: a pointer, a length, a descriptor, the octets of a path or the filesystem can make
it fail, but none of them can end the run. Only a call without a memory fails fatally, and then
always for the same reason. What is fatal on an attached memory is therefore decided before a call
begins, by its name and its integers alone, and nothing is done then.

* **`Action.gentle_pervades`**, **`Call.gentle_body`** — all bodies are `Gentle`: they fail fatally
  only for want of a memory.
* **`Call.Answers`** — what a guest is answered, by how the body has ended.
* **`Call.dispatch_answers`** — which calls are refused, and that all others are answered.
-/

namespace WasiHost

/-! ## Steps of bodies

A step looks, or changes the session, or lets something out, and cannot fail; or it is an access to
guest memory, and then it fails fatally only if the access does (`gentle_access`). So the property
`Pervades` bodies. -/

namespace Action

open Memory

variable {α : Type}

theorem gentle_access {x : Access α} (h : Gentle id x) : Gentle Workspace.memory (access x) where
  fatal := by
    intro w e w' hx
    obtain ⟨memory, hmemory, _⟩ := access_eq_error_iff.mp hx
    exact h.fatal w.memory e memory hmemory
  detached := by
    intro w a w' hx hdetached
    obtain ⟨memory, hmemory, rfl⟩ := access_eq_ok_iff.mp hx
    exact h.detached w.memory a memory hmemory hdetached

theorem gentle_look (f : Session → α) : Gentle Workspace.memory (look f) :=
  gentle_of_ok fun _ => ⟨_, _, rfl, rfl⟩

theorem gentle_change (f : Session → Session) : Gentle Workspace.memory (change f) :=
  gentle_of_ok fun _ => ⟨_, _, rfl, rfl⟩

theorem gentle_emit (events : List Event) : Gentle Workspace.memory (emit events) :=
  gentle_of_ok fun _ => ⟨_, _, rfl, rfl⟩

/-- `reveal` hides no failure by closing the descriptor again. -/
theorem gentle_reveal (fd : Fd) (address : UInt32) :
    Gentle Workspace.memory (reveal fd address) := by
  -- the failure is that of the store, whatever closing the descriptor does
  have hstore := gentle_access (Access.gentle_write address (LittleEndian.encode 4 fd.toNat))
  constructor
  case fatal =>
    intro w e w' h
    cases hw : access (Access.writeU32 address fd) w with
    | ok u t =>
      rw [reveal_of_ok hw] at h
      cases h
    | error e' t =>
      rw [reveal_of_error hw] at h
      cases h
      exact hstore.fatal w e _ hw
  case detached =>
    intro w a w' h hdetached
    cases hw : access (Access.writeU32 address fd) w with
    | ok u t =>
      rw [reveal_of_ok hw] at h
      cases h
      exact hstore.detached w () _ hw hdetached
    | error e t =>
      rw [reveal_of_error hw] at h
      cases h

/-- `Gentle` holds of every step that bodies are made of. -/
theorem gentle_pervades : Pervades (Gentle Workspace.memory) where
  toSequential := Gentle.sequential _
  look _ := gentle_look _
  access h := gentle_access h
  changeTable _ := gentle_change _
  takeQueued _ := gentle_change _
  emit _ _ := gentle_emit _
  closeDescriptor _ :=
    (Gentle.sequential _).closeDescriptor (gentle_look _) (fun _ => gentle_change _) fun _ =>
      gentle_emit _
  reveal := gentle_reveal

end Action

/-! ## Calls

`gentle_body` leaves one fatal error to a body, and an attached memory rules that one out. So a body
always has an answer, and what is refused is refused before it begins. -/

namespace Call

open WasiHost.Action

/-- No body fails fatally except for want of a memory: one `Gentle` walk of every `body`. -/
theorem gentle_body (host : Host) (call : Call) : Gentle Workspace.memory (call.body host) :=
  gentle_pervades.body host fun _ _ =>
    (Gentle.sequential _).procExit (fun _ _ => gentle_emit _) (gentle_change _)

variable {host : Host} {call : Call} {s : Session} {memory : Memory}

/-- What a guest is answered: for a success zero, or the resolution if that was asked for without a
place to store it; for an error number 8, or the number itself if the call is about a clock. -/
def Answers (call : Call) (ended : EStateM.Result CallError Workspace Unit) (answer : UInt64) :
    Prop :=
  match ended with
  | .ok _ _ => answer = match call with
    | clockResolution _ => 1000000000
    | _ => 0
  | .error (.guest errno) _ => answer = if call.asksClock then errno.code.toUInt64 else 8
  | .error (.fatal _) _ => False

/-- With a memory a call is always answered, and the answer is that of `Answers`. -/
theorem perform_answers (host : Host) (call : Call) (s : Session) (linear : LinearMemory) :
    ∃ answer, (call.perform host s (.attached linear)).answer = .ok answer ∧
      call.Answers (call.run host s (.attached linear)) answer := by
  cases hrun : call.run host s (.attached linear) with
  | ok u w =>
    refine ⟨call.successAnswer, (perform_of_ok hrun).1, ?_⟩
    -- only the resolution of a clock is answered by something else than zero
    cases call <;> rfl
  | error e w =>
    cases e with
    | guest errno =>
      refine ⟨call.failureAnswer errno, answer_of_error hrun, ?_⟩
      cases call <;> rfl
    | fatal error =>
      -- the memory is attached
      obtain ⟨hdetached, _⟩ := (gentle_body host call).fatal _ error w hrun
      cases hdetached

/-- With a memory, whatever a call fails with that does not `asksClock`, the guest is told 8. -/
theorem answer_eq_eight {linear : LinearMemory} (hclock : call.asksClock = false)
    (hfails : (call.perform host s (.attached linear)).answer ≠ .ok 0) :
    (call.perform host s (.attached linear)).answer = .ok 8 := by
  obtain ⟨answer, hanswer, hanswers⟩ := perform_answers host call s linear
  obtain ⟨e, w, hrun⟩ | ⟨clock, rfl⟩ := run_of_answer_ne_zero hfails
  · rw [hrun] at hanswers
    cases e with
    | guest errno =>
      change answer = if call.asksClock then _ else 8 at hanswers
      rw [hclock] at hanswers
      rw [hanswer, hanswers]
      rfl
    | fatal error => cases hanswers
  · cases hclock

/-- The reply to a call that is refused before it begins. -/
def refused (error : FatalError) (s : Session) (memory : Memory) : Reply :=
  { answer := .error error, session := s, memory := memory, events := [] }

/-- `refused` is all there is to a name that no call has. -/
theorem dispatch_of_unknown {name : String} (h : ∀ c : CallName, c.name ≠ name)
    (words : List UInt64) :
    dispatch host name words s memory = refused (.unknownCall name) s memory := by
  simp only [dispatch, CallName.ofName?_eq_none_iff.mpr h, refused]

/-- `dispatch` refuses integers that the call of that name does not take. -/
theorem dispatch_of_not_accepts {c : CallName} {words : List UInt64} (h : ¬ c.Accepts words) :
    dispatch host c.name words s memory = refused (.badArguments c) s memory := by
  simp only [dispatch, CallName.ofName?_name, ofWords?_eq_none_iff.mpr h, refused]

/-- A call is reached by its own name and `Call.words`. -/
theorem dispatch_words (host : Host) (call : Call) (s : Session) (memory : Memory) :
    dispatch host call.name.name call.words s memory = call.perform host s memory := by
  simp only [dispatch, CallName.ofName?_name, ofWords?_words]

/-- On an attached memory `dispatch` refuses exactly if there is no call of that name or it does not
take these integers, and then nothing is done; every other call is answered. -/
theorem dispatch_answers (host : Host) (name : String) (words : List UInt64) (s : Session)
    (linear : LinearMemory) :
    ((∃ error, (dispatch host name words s (.attached linear)).answer = .error error) ↔
        (∀ c : CallName, c.name ≠ name) ∨ ∃ c : CallName, c.name = name ∧ ¬ c.Accepts words) ∧
      (∀ error, (dispatch host name words s (.attached linear)).answer = .error error →
        ((∀ c : CallName, c.name ≠ name) ∧ error = .unknownCall name ∨
          ∃ c : CallName, c.name = name ∧ ¬ c.Accepts words ∧ error = .badArguments c) ∧
        (dispatch host name words s (.attached linear)).session = s ∧
        (dispatch host name words s (.attached linear)).memory = .attached linear ∧
        (dispatch host name words s (.attached linear)).events = []) ∧
      ∀ answer, (dispatch host name words s (.attached linear)).answer = .ok answer →
        ∃ call : Call, call.name.name = name ∧ call.words = words ∧
          call.Answers (call.run host s (.attached linear)) answer := by
  by_cases hunknown : ∀ c : CallName, c.name ≠ name
  · rw [dispatch_of_unknown hunknown]
    refine ⟨⟨fun _ => .inl hunknown, fun _ => ⟨_, rfl⟩⟩, fun error herror => ?_, nofun⟩
    cases herror
    exact ⟨.inl ⟨hunknown, rfl⟩, rfl, rfl, rfl⟩
  · obtain ⟨c, rfl⟩ : ∃ c : CallName, c.name = name := by simpa using hunknown
    by_cases haccepts : c.Accepts words
    · -- the name and the integers are those of a call, and that call is answered
      obtain ⟨call, rfl, rfl⟩ := exists_of_accepts haccepts
      obtain ⟨answer, hanswer, hanswers⟩ := perform_answers host call s linear
      rw [dispatch_words, hanswer]
      refine ⟨⟨nofun, ?_⟩, nofun, fun answer' heq => ?_⟩
      · -- a name means one call, and that one takes these integers
        rintro (hnone | ⟨d, hname, hrefused⟩)
        · exact absurd rfl (hnone call.name)
        · exact absurd (CallName.name_inj hname ▸ haccepts) hrefused
      · cases heq
        exact ⟨call, rfl, rfl, hanswers⟩
    · rw [dispatch_of_not_accepts haccepts]
      refine ⟨⟨fun _ => .inr ⟨c, rfl, haccepts⟩, fun _ => ⟨_, rfl⟩⟩, fun error herror => ?_, nofun⟩
      cases herror
      exact ⟨.inr ⟨c, rfl, haccepts, rfl⟩, rfl, rfl, rfl⟩

end Call

end WasiHost
