import WasiHost.Proofs.Call.Host

/-!
# Without clocks nothing depends on time

While clocks are not served the time is not asked for, and the times of files read as zero wherever
attributes are shown. So two worlds that differ in nothing but time are the same to a program, not
only for one call but for as long as it runs: whatever it is answered, finds in its memory, prints,
or leaves in the log and behind descriptors.

* **`Deed`**, **`Session.outcomes`** — what happens in a run in which guest memory is passed on, and
  what comes of it in a changing world.
* **`Host.SameButTime`** — two worlds at one moment.
* **`Deed.outcome_congr`** — one deed has one outcome in both, and clocks are still not served.
* **`Session.Reachable.outcomes_timeless`** — and so have runs.
-/

namespace WasiHost

/-! ## Runs that pass memory on

In `Session.run` every step brings its own memory. Here what one call leaves in memory is what the
next one finds, and between calls the guest may do anything to it. -/

/-- One thing that happens in a run. -/
inductive Deed where
  /-- A host call. -/
  | perform (call : Call)
  /-- A host call by its name and raw integers. -/
  | dispatch (name : String) (words : List UInt64)
  /-- Octets are queued on standard input. -/
  | pushStdin (bytes : Bytes)
  /-- The options are replaced. -/
  | withOptions (options : Options)
  /-- The guest works on its memory, or the memory is exchanged. -/
  | work (f : Memory → Memory)

/-- What has come of a deed. -/
structure Outcome where
  /-- What a host call was answered. -/
  answer : Option (Except FatalError UInt64)
  session : Session
  memory : Memory
  /-- What was let out, in order. -/
  events : List Event

namespace Deed

/-- What comes of a host call. -/
def replied (reply : Reply) : Outcome :=
  { answer := some reply.answer
    session := reply.session
    memory := reply.memory
    events := reply.events }

/-- What comes of something that is no host call. -/
def silent (s : Session) (memory : Memory) : Outcome :=
  { answer := none, session := s, memory := memory, events := [] }

/-- What comes of a deed. -/
def outcome (host : Host) (s : Session) (memory : Memory) : Deed → Outcome
  | perform call => replied (call.perform host s memory)
  | dispatch name words => replied (Call.dispatch host name words s memory)
  | pushStdin bytes => silent (s.pushStdin bytes) memory
  | withOptions options => silent (s.withOptions options) memory
  | work f => silent s (f memory)

/-- The deed leaves clocks off if they are off. -/
def KeepsClocksOff : Deed → Prop
  | withOptions options => options.enableClock = false
  | _ => True

end Deed

/-- What comes of one deed after the other, each on what the one before has left, in a world that
changes from deed to deed. -/
def Session.outcomes : (Nat → Host) → Session → Memory → List Deed → List Outcome
  | _, _, _, [] => []
  | world, s, memory, deed :: rest =>
    let outcome := deed.outcome (world 0) s memory
    outcome :: outcomes (fun n => world (n + 1)) outcome.session outcome.memory rest

/-- Two hosts differ at most in what time it is and in the times of files. -/
structure Host.SameButTime (host host' : Host) : Prop where
  stat : ∀ path, (host.fileSystem.stat path).map FileStat.withoutTimes =
    (host'.fileSystem.stat path).map FileStat.withoutTimes
  read : ∀ path, host.fileSystem.read path = host'.fileSystem.read path
  random : host.random = host'.random

variable {s s' : Session} {host host' : Host} {call : Call} {memory : Memory}

/-! ## What is not told

Times are struck out of the attributes before they are shown (`Session.shownFileStat_congr`), and an
open looks at the kind only. The clock is not asked at all. -/

/-- `shownFileStat` leaves the times out if clocks are not served. -/
theorem Session.shownFileStat_congr (hclock : s.options.enableClock = false) (path : String)
    {stat stat' : FileStat} (h : stat.withoutTimes = stat'.withoutTimes) :
    s.shownFileStat path stat = s.shownFileStat path stat' := by
  have hshown : ∀ stat : FileStat, s.shownFileStat path stat =
      { stat.withoutTimes with fileType := shownFileType path stat.withoutTimes.fileType } := by
    intro stat
    unfold Session.shownFileStat
    rw [hclock]
    rfl
  rw [hshown, hshown, h]

/-- Without clocks a session `SeesAlike` hosts that differ in nothing but time. -/
theorem Host.SameButTime.seesAlike (h : host.SameButTime host')
    (hclock : s.options.enableClock = false) : s.SeesAlike host host' where
  shown path _ := by
    unfold Session.fileStat
    rcases cases_of_map_eq_map (h.stat path) with
      ⟨errno, hhere, hthere⟩ | ⟨stat, stat', hhere, hthere, hsame⟩
    · rw [hhere, hthere]
    · rw [hhere, hthere]
      exact congrArg Except.ok (s.shownFileStat_congr hclock path hsame)
  kind path _ := by
    rcases cases_of_map_eq_map (h.stat path) with
      ⟨errno, hhere, hthere⟩ | ⟨stat, stat', hhere, hthere, hsame⟩
    · rw [hhere, hthere]
    · rw [hhere, hthere]
      -- the kind is not a time
      have hkind : stat.withoutTimes.isDirectory = stat'.withoutTimes.isDirectory := by rw [hsame]
      exact congrArg Except.ok hkind
  content path _ := h.read path
  clock henabled := by
    rw [hclock] at henabled
    cases henabled
  random := h.random

/-! ## Calls leave the options alone

That clocks are off must last, or the time would be told later. -/

/-- No way of `Session.Moves` changes the options. -/
theorem Session.Moves.options_eq {succeeded : Bool} (h : s.Moves host call succeeded s') :
    s'.options = s.options := by
  cases h with
  | serves _ _ _ _ _ _ _ hserves => cases hserves <;> rfl
  | _ => rfl

/-- `perform` does not change the options. -/
theorem Call.options_perform (hsound : s.table.Sound) (host : Host) (call : Call)
    (memory : Memory) : (call.perform host s memory).session.options = s.options := by
  obtain ⟨_, hmoves, _⟩ := perform_moves host call memory hsound
  exact hmoves.options_eq

theorem Call.options_dispatch (hsound : s.table.Sound) (host : Host) (name : String)
    (words : List UInt64) (memory : Memory) :
    (dispatch host name words s memory).session.options = s.options := by
  rcases dispatch_cases name words with ⟨call, hcall⟩ | ⟨error, hrefused⟩
  · rw [hcall]
    exact options_perform hsound host call memory
  · rw [hrefused]

/-! ## Deeds and runs

`Call.perform_congr` for each call, with `Host.SameButTime.seesAlike` for the two hosts. -/

namespace Deed

/-- What a `Deed` leaves of a session is `Reachable`: a deed is a step, or works on memory only. -/
theorem reachable_outcome (hs : s.Reachable) (host : Host) (memory : Memory) (deed : Deed) :
    (deed.outcome host s memory).session.Reachable := by
  cases deed with
  | perform call => exact hs.step (.perform host call memory)
  | dispatch name words => exact hs.step (.dispatch host name words memory)
  | pushStdin bytes => exact hs.step (.pushStdin bytes)
  | withOptions options => exact hs.step (.withOptions options)
  | work f => exact hs

/-- `outcome` is the same in two worlds that differ in nothing but time. -/
theorem outcome_congr (hsound : s.table.Sound) (hclock : s.options.enableClock = false)
    (h : host.SameButTime host') (memory : Memory) (deed : Deed) :
    deed.outcome host s memory = deed.outcome host' s memory := by
  have halike := h.seesAlike hclock
  cases deed with
  | perform call => exact congrArg replied (Call.perform_congr hsound halike call memory)
  | dispatch name words =>
    exact congrArg replied (Call.dispatch_congr hsound halike name words memory)
  | pushStdin bytes => rfl
  | withOptions options => rfl
  | work f => rfl

/-- `enableClock` stays off unless other options come. -/
theorem enableClock_outcome (hsound : s.table.Sound) (hclock : s.options.enableClock = false)
    (host : Host) (memory : Memory) {deed : Deed} (hkeeps : deed.KeepsClocksOff) :
    (deed.outcome host s memory).session.options.enableClock = false := by
  cases deed with
  | perform call =>
    show (call.perform host s memory).session.options.enableClock = false
    rw [Call.options_perform hsound, hclock]
  | dispatch name words =>
    show (Call.dispatch host name words s memory).session.options.enableClock = false
    rw [Call.options_dispatch hsound, hclock]
  | pushStdin bytes => exact hclock
  | withOptions options => exact hkeeps
  | work f => exact hclock

end Deed

namespace Session

/-- As long as clocks are not served, two runs that do the same in worlds that are `SameButTime`
have the same `outcomes`, deed by deed: answers, sessions, memories, texts and log records. -/
theorem Reachable.outcomes_timeless (hs : s.Reachable) (hclock : s.options.enableClock = false)
    {world world' : Nat → Host} (hworlds : ∀ n, (world n).SameButTime (world' n))
    (memory : Memory) {deeds : List Deed} (hdeeds : ∀ deed ∈ deeds, deed.KeepsClocksOff) :
    s.outcomes world memory deeds = s.outcomes world' memory deeds := by
  -- from deed to deed the worlds move on, and what one deed leaves is what the next finds
  induction deeds generalizing s memory world world' with
  | nil => rfl
  | cons deed rest ih =>
    obtain ⟨hkeeps, hrest⟩ := List.forall_mem_cons.mp hdeeds
    have hnow := deed.outcome_congr hs.sound hclock (hworlds 0) memory
    have hlater := ih (deed.reachable_outcome hs (world 0) memory)
      (Deed.enableClock_outcome hs.sound hclock (world 0) memory hkeeps)
      (fun n => hworlds (n + 1)) (deed.outcome (world 0) s memory).memory hrest
    show deed.outcome (world 0) s memory :: _ = deed.outcome (world' 0) s memory :: _
    rw [← hnow, hlater]

/-- A file is opened and its attributes and the time are asked for, in a `tree` where time stands
still and in one where it goes by. -/
theorem outcomes_timeless_of_two_clocks :
    let tree := FlatTree.empty.insertFile "/f" [10, 20, 30]
    let dated (now : UInt64) : Host :=
      { fileSystem :=
          { stat := fun path => (tree.stat path).map fun stat => { stat with mtime := now }
            read := tree.read }
        clock := .ok now
        random := fun _ => 0 }
    let world : Nat → Host := fun _ => dated 5
    let world' : Nat → Host := fun n => dated (UInt64.ofNat n)
    let s := initial.withOptions { enableClock := false }
    let deeds : List Deed :=
      [.perform (.pathOpen Fd.root 0 0 1 0 0 0 0 32), .perform (.fdFdstatGet Fd.firstFree 64),
        .perform (.pathFilestatGet Fd.root 0 0 1 64), .perform (.clockTimeGet 0 1 64)]
    let memory := Memory.holding 128 (utf8 "f")
    (s.outcomes world memory deeds).map Outcome.answer =
        [some (.ok 0), some (.ok 0), some (.ok 0), some (.ok ErrNo.access.code.toUInt64)] ∧
      s.outcomes world memory deeds = s.outcomes world' memory deeds := by
  intro tree dated world world' s deeds memory
  have hs : s.Reachable := reachable_initial.step (.withOptions { enableClock := false })
  have hworlds : ∀ n, (world n).SameButTime (world' n) := by
    intro n
    -- the two differ in the time at which `f` was changed, and in the clock
    refine ⟨fun path => ?_, fun path => rfl, rfl⟩
    show ((tree.stat path).map _).map _ = ((tree.stat path).map _).map _
    cases tree.stat path <;> rfl
  have hdeeds : ∀ deed ∈ deeds, deed.KeepsClocksOff := by
    simp [deeds, Deed.KeepsClocksOff]
  exact ⟨by decide +kernel, hs.outcomes_timeless rfl hworlds memory hdeeds⟩

end Session

end WasiHost
