import WasiHost.FileSystem.FlatTree
import WasiHost.Proofs.Call.Outcome

/-!
# Runs of sessions

A session goes on by steps: host calls, given directly or as raw integers, octets queued on standard
input, and new options. Every step brings its own host and its own guest memory, so between two
steps the filesystem and the memory may change in any way.

* **`Step`**, **`Session.step`**, **`Session.run`** — steps and what they do.
* **`Session.Reachable`** — the sessions that some run leads to.
* **`Session.Moves.sound`**, **`Session.Reachable.sound`** — the table of a session stays sound.
-/

namespace WasiHost

/-- The host that has a tree of files and nothing else to offer. -/
def Host.ofTree (tree : FlatTree) : Host :=
  { fileSystem := tree.fileSystem, clock := .error .access, random := fun _ => 0 }

/-- The memory of the given size that begins with the given octets. -/
def Memory.holding (size : Nat) (data : Bytes) : Memory :=
  .attached { bytes := (Octets.zeros size).write 0 data }

/-- One thing that happens to a session. -/
inductive Step where
  /-- A host call. -/
  | perform (host : Host) (call : Call) (memory : Memory)
  /-- A host call by its name and raw integers. -/
  | dispatch (host : Host) (name : String) (words : List UInt64) (memory : Memory)
  /-- Octets are queued on standard input. -/
  | pushStdin (bytes : Bytes)
  /-- The options are replaced. -/
  | withOptions (options : Options)

namespace Step

/-- The host call that a step performs, and on which host and guest memory. -/
def performed? : Step → Option (Host × Call × Memory)
  | perform host call memory => some (host, call, memory)
  | dispatch host name words memory =>
    ((CallName.ofName? name).bind fun callName => Call.ofWords? callName words).map
      fun call => (host, call, memory)
  | _ => none

/-- The reply to a step that is a host call. -/
def reply? (s : Session) : Step → Option Reply
  | perform host call memory => some (call.perform host s memory)
  | dispatch host name words memory => some (Call.dispatch host name words s memory)
  | _ => none

/-- The octets that a step queues on standard input. -/
def queued : Step → Bytes
  | pushStdin bytes => bytes
  | withOptions options => options.stdin
  | _ => []

end Step

namespace Session

/-- The session after a step. -/
def step (s : Session) : Step → Session
  | .perform host call memory => (call.perform host s memory).session
  | .dispatch host name words memory => (Call.dispatch host name words s memory).session
  | .pushStdin bytes => s.pushStdin bytes
  | .withOptions options => s.withOptions options

/-- The session after steps, one after the other. -/
def run (s : Session) (steps : List Step) : Session :=
  steps.foldl step s

/-- The sessions that some run from the beginning leads to. -/
def Reachable (s : Session) : Prop :=
  ∃ steps, s = initial.run steps

@[simp] theorem run_nil (s : Session) : s.run [] = s := rfl

@[simp] theorem run_cons (s : Session) (step : Step) (rest : List Step) :
    s.run (step :: rest) = (s.step step).run rest := rfl

/-- Runs are put together by `List.append`. -/
theorem run_append (s : Session) (earlier later : List Step) :
    s.run (earlier ++ later) = (s.run earlier).run later := by
  simp only [run, List.foldl_append]

theorem reachable_initial : initial.Reachable := ⟨[], rfl⟩

theorem Reachable.run {s : Session} (h : s.Reachable) (steps : List Step) :
    (s.run steps).Reachable := by
  obtain ⟨earlier, rfl⟩ := h
  exact ⟨earlier ++ steps, (run_append _ _ _).symm⟩

theorem Reachable.step {s : Session} (h : s.Reachable) (step : Step) : (s.step step).Reachable :=
  h.run [step]

theorem Reachable.perform {s : Session} (h : s.Reachable) (host : Host) (call : Call)
    (memory : Memory) : (call.perform host s memory).session.Reachable :=
  h.step (.perform host call memory)

/-! ## What one step does

A step performs a call or it does not, and `Step.performed?` tells. Later arguments about steps
split by it and go on with `step_of_performed` and `step_of_not_performed`. -/

variable {s s' : Session} {step : Step} {host : Host} {call : Call} {memory : Memory}

/-- `dispatch` that `performed?` can read is `perform` of that call. -/
theorem dispatch_of_performed {name : String} {words : List UInt64}
    (h : (Step.dispatch host name words memory).performed? = some (host, call, memory))
    (s : Session) :
    Call.dispatch host name words s memory = call.perform host s memory := by
  obtain ⟨call', hcall, heq⟩ := Option.map_eq_some_iff.mp h
  obtain ⟨callName, hname, hwords⟩ := Option.bind_eq_some_iff.mp hcall
  cases heq
  unfold Call.dispatch
  simp only [hname, hwords]

/-- A step with a `performed?` call does to the session what the call does. -/
theorem step_of_performed (h : step.performed? = some (host, call, memory)) (s : Session) :
    s.step step = (call.perform host s memory).session ∧ step.queued = [] ∧
      step.reply? s = some (call.perform host s memory) := by
  cases step with
  | perform host' call' memory' =>
    cases h
    exact ⟨rfl, rfl, rfl⟩
  | dispatch host' name words memory' =>
    obtain ⟨call', _, heq⟩ := Option.map_eq_some_iff.mp h
    cases heq
    refine ⟨?_, rfl, ?_⟩
    · rw [Session.step, dispatch_of_performed h s]
    · rw [Step.reply?, dispatch_of_performed h s]
  | pushStdin bytes => cases h
  | withOptions options => cases h

/-- `dispatch` that cannot be read leaves the session as it is. -/
theorem dispatch_of_not_performed {name : String} {words : List UInt64}
    (h : (Step.dispatch host name words memory).performed? = none) (s : Session) :
    (Call.dispatch host name words s memory).session = s := by
  rw [Step.performed?, Option.map_eq_none_iff] at h
  unfold Call.dispatch
  cases hname : CallName.ofName? name with
  | none => rfl
  | some callName =>
    rw [hname, Option.bind_some] at h
    simp only [h]

/-- A step without a `performed?` call at most queues octets and replaces the options. -/
theorem step_of_not_performed (h : step.performed? = none) (s : Session) :
    (s.step step).stdin = s.stdin ++ step.queued ∧ (s.step step).table = s.table := by
  cases step with
  | perform host call memory => cases h
  | dispatch host name words memory =>
    rw [Session.step, dispatch_of_not_performed h]
    exact ⟨(List.append_nil _).symm, rfl⟩
  | pushStdin bytes => exact ⟨rfl, rfl⟩
  | withOptions options => exact ⟨rfl, rfl⟩

/-! ## Soundness

`DescriptorTable.Sound` is the invariant of all runs. It is shown for each way of `Session.Moves`,
and by `Call.perform_moves` there is no other. -/

/-- What is served of an `Opened` file lies inside its content. -/
theorem offset_add_le {path : String} {offset : UInt64} {content : Option Bytes} {status : FdStat}
    {bytes : Bytes} {n r : Nat} (hopened : (Descriptor.file path offset content status).Opened)
    (hbytes : host.loaded? path content = some bytes)
    (hn : n = min (bytes.length - offset.toNat) r) :
    offset.toNat + n ≤ bytes.length := by
  have hoffset : offset.toNat ≤ bytes.length := by
    cases hopened with
    | file _ _ _ _ _ hunread hinside =>
      cases content with
      | none =>
        rw [hunread rfl]
        exact Nat.zero_le _
      | some loaded =>
        cases hbytes
        exact hinside bytes rfl
  omega

/-- `Opened` is kept by loading a file and moving its offset within the content. -/
theorem opened_of_loaded {path : String} {offset offset' : UInt64} {content : Option Bytes}
    {status : FdStat} {bytes : Bytes}
    (hopened : (Descriptor.file path offset content status).Opened)
    (hoffset : offset'.toNat ≤ bytes.length) :
    (Descriptor.file path offset' (some bytes) status).Opened := by
  cases hopened with
  | file _ _ _ _ hcanonical _ _ =>
    refine .file path offset' (some bytes) status hcanonical nofun fun loaded hloaded => ?_
    cases hloaded
    exact hoffset

/-- Serving a file moves its offset within the content, by `offset_add_le`. -/
theorem Serves.sound {fd : Fd} {vectors : List IoVec} {data : Bytes}
    (h : s.Serves host fd vectors data s') (hsound : s.table.Sound) : s'.table.Sound := by
  cases h with
  | stdin k hget hk => exact hsound
  | file path offset content status bytes moved hget hbytes hmoved =>
    -- a file is not under a reserved number
    obtain ⟨hfree, hopened⟩ := hsound.opened_of_file hget
    have hsum := offset_add_le hopened hbytes hmoved
    refine hsound.set hfree (opened_of_loaded hopened ?_)
    rw [UInt64.toNat_add, UInt32.toNat_toUInt64]
    exact (Nat.mod_le _ _).trans hsum

/-- No call spoils the table: `Moves` keeps it `Sound`, way by way. -/
theorem Moves.sound {succeeded : Bool} (h : s.Moves host call succeeded s')
    (hsound : s.table.Sound) : s'.table.Sound := by
  cases h with
  | stays => exact hsound
  | exits code => exact hsound
  | closes fd table records hclose => exact hsound.close hclose
  | flags fd flags d hget =>
    rcases hsound.cases_of_get hget with ⟨hfree, hopened⟩ | hreserved
    · exact hsound.set hfree (hopened.withFlags _)
    · -- flags of a reserved descriptor are left alone
      have hsame : d.withFlags flags.toUInt16 = d := by
        rcases hreserved with ⟨_, rfl⟩ | ⟨_, rfl⟩ | ⟨_, rfl⟩ | ⟨_, rfl⟩ <;> rfl
      rw [hsame, DescriptorTable.set_of_get hget]
      exact hsound
  | serves fd buffers count address vectors data _ hserves => exact hserves.sound hsound
  | loads fd buffers count address path offset content status bytes hget hbytes =>
    obtain ⟨hfree, hopened⟩ := hsound.opened_of_file hget
    -- nothing was moved, so the offset is where it was, inside the content
    have hoffset := offset_add_le (n := 0) (r := 0) hopened hbytes (by simp)
    exact hsound.set hfree (opened_of_loaded hopened hoffset)
  | opens _ _ _ _ _ _ _ _ _ d new table hd hinsert => exact hsound.insert hd hinsert
  | undoes _ _ _ _ _ _ _ _ _ d new opened table hd hinsert hclose =>
    -- the table in between is sound as well
    exact (hsound.insert hd hinsert).close hclose

/-- Every `step` keeps the table `Sound`. -/
theorem sound_step (hsound : s.table.Sound) (step : Step) : (s.step step).table.Sound := by
  cases hstep : step.performed? with
  | none =>
    rw [(step_of_not_performed hstep s).2]
    exact hsound
  | some performed =>
    obtain ⟨host, call, memory⟩ := performed
    obtain ⟨succeeded, hmoves, _⟩ := Call.perform_moves host call memory hsound
    rw [(step_of_performed hstep s).1]
    exact hmoves.sound hsound

theorem sound_run (hsound : s.table.Sound) (steps : List Step) : (s.run steps).table.Sound := by
  induction steps generalizing s with
  | nil => exact hsound
  | cons step rest ih => exact ih (sound_step hsound step)

/-- The table of every `Reachable` session is `Sound`. -/
theorem Reachable.sound (h : s.Reachable) : s.table.Sound := by
  obtain ⟨steps, rfl⟩ := h
  exact sound_run DescriptorTable.sound_initial steps

end Session

end WasiHost
