import WasiHost.Proofs.Session.Alike

/-!
# Failing calls leave everything as it was

A call that does not succeed has no effect on the session that anyone could see later, with one
exception: a read may have loaded the content of its file before it failed. Guest memory is left
alone as well by every call that stores its results at once.

* **`Session.Moves.alike_of_failed`**, **`Session.Moves.get_of_failed`** — a failing call leaves an
  alike table.
* **`Call.LeavesAsWas`** — what it means that a call has left everything as it was.
* **`Session.Reachable.leavesAsWas`** — every failing call does.
* **`Call.storesPiecemeal_iff`** — the calls that may fail after they have stored something.
-/

namespace WasiHost

namespace Session

variable {s s' : Session} {host : Host} {call : Call} {memory : Memory}

/-! ## What a body that fails does to the session

A call that fails stays where it is, or has loaded a content, or has opened a descriptor and closed
it again. The last one leaves another arena behind, and `DescriptorTable.Alike` says that no one can
tell. -/

/-- Of the ways in `Session.Moves` three are open to a call that fails, and these change the table
at most. -/
theorem Moves.untouched_of_failed (h : s.Moves host call false s') :
    s'.stdin = s.stdin ∧ s'.exitCode = s.exitCode ∧ s'.options = s.options := by
  cases h with
  | stays => exact ⟨rfl, rfl, rfl⟩
  | loads => exact ⟨rfl, rfl, rfl⟩
  | undoes => exact ⟨rfl, rfl, rfl⟩

/-- `Moves` of a failing call changes no descriptor, but an `fdRead` may load the content of its
file. -/
theorem Moves.get_of_failed (h : s.Moves host call false s') (hsound : s.table.Sound) (fd : Fd) :
    s'.table.get fd = s.table.get fd ∨
      ∃ buffers count address path offset status bytes,
        call = .fdRead fd buffers count address ∧ host.fileSystem.read path = .ok bytes ∧
          s.table.get fd = .ok (.file path offset none status) ∧
          s'.table.get fd = .ok (.file path offset (some bytes) status) := by
  cases h with
  | stays => exact .inl rfl
  | loads fd' buffers count address path offset content status bytes hget hbytes =>
    by_cases hfd : fd = fd'
    · subst hfd
      cases content with
      | some loaded =>
        -- what is loaded already is not loaded again
        cases hbytes
        exact .inl ((DescriptorTable.get_set_self hget).trans hget.symm)
      | none =>
        have hread : host.fileSystem.read path = .ok bytes := by
          unfold Host.loaded? at hbytes
          cases hread : host.fileSystem.read path with
          | ok found =>
            rw [hread] at hbytes
            cases hbytes
            rfl
          | error errno =>
            rw [hread] at hbytes
            cases hbytes
        exact .inr ⟨buffers, count, address, path, offset, status, bytes, rfl, hread, hget,
          DescriptorTable.get_set_self hget⟩
    · -- any other descriptor is left alone
      exact .inl (DescriptorTable.get_set_of_ne hfd)
  | undoes _ _ _ _ _ _ _ _ _ d new opened table hd hinsert hclosed =>
    obtain ⟨after, hclosed', hsame, _⟩ := hsound.close_insert hinsert
    cases hclosed.symm.trans hclosed'
    exact .inl (hsame fd)

/-- `Moves` of a failing call leaves the numbers to come as they were. -/
theorem Moves.alike_of_failed (h : s.Moves host call false s') (hsound : s.table.Sound) :
    s'.Alike s := by
  refine ⟨?_, h.untouched_of_failed.2.2⟩
  cases h with
  | stays => exact hsound.alike_refl
  | loads fd buffers count address path offset content status bytes hget _ =>
    exact hsound.alike_set hget rfl
  | undoes _ _ _ _ _ _ _ _ _ d new opened table hd hinsert hclosed =>
    -- the arena is another one now, but the same numbers are to come
    obtain ⟨after, hclosed', _, halike⟩ := hsound.close_insert hinsert
    cases hclosed.symm.trans hclosed'
    exact halike

end Session

/-! ## Failing calls

The three put together. Guest memory is up to `Call.storesPiecemeal`. -/

/-- A call has left everything as it was: the queue, the exit code, the options, the texts and the
descriptors, except that a read may have loaded the content of its file, and the numbers that later
opens and closes hand out. Guest memory is as it was unless the call stores its results piece by
piece. -/
structure Call.LeavesAsWas (host : Host) (call : Call) (s : Session) (memory : Memory)
    (reply : Reply) : Prop where
  stdin : reply.session.stdin = s.stdin
  exitCode : reply.session.exitCode = s.exitCode
  options : reply.session.options = s.options
  stdoutTexts : Event.stdoutTexts reply.events = []
  stderrTexts : Event.stderrTexts reply.events = []
  descriptors : ∀ fd, reply.session.table.get fd = s.table.get fd ∨
    ∃ buffers count address path offset status bytes,
      call = .fdRead fd buffers count address ∧ host.fileSystem.read path = .ok bytes ∧
        s.table.get fd = .ok (.file path offset none status) ∧
        reply.session.table.get fd = .ok (.file path offset (some bytes) status)
  /-- Every sequence of opens and closes that may follow tells the same as if there had been no
  call. -/
  numbers : ∀ later : List Step, (∀ step ∈ later, step.OpensOrCloses) →
    reply.session.told later = s.told later
  memory : call.storesPiecemeal = false → reply.memory = memory

/-- A call that fails on a `Reachable` session `LeavesAsWas`. -/
theorem Session.Reachable.leavesAsWas {s : Session} (hs : s.Reachable) (host : Host) (call : Call)
    (memory : Memory) (h : (call.perform host s memory).answer ≠ .ok 0) :
    call.LeavesAsWas host s memory (call.perform host s memory) := by
  have hsound := hs.sound
  obtain ⟨hmoves, hstdout, hstderr, hmemory⟩ := Call.perform_of_answer_ne_zero hsound h
  obtain ⟨hstdin, hexit, hoptions⟩ := hmoves.untouched_of_failed
  exact
    { stdin := hstdin
      exitCode := hexit
      options := hoptions
      stdoutTexts := hstdout
      stderrTexts := hstderr
      descriptors := hmoves.get_of_failed hsound
      numbers := fun later hlater => (hmoves.alike_of_failed hsound).told later hlater
      memory := hmemory }

/-- A `pathOpen` whose result address is out of bounds opens a descriptor and closes it again. -/
theorem leavesAsWas_of_unstored_number :
    let call : Call := .pathOpen Fd.root 0 0 1 0 0 0 0 64
    let host := Host.ofTree (FlatTree.empty.insertFile "/f" [10, 20, 30])
    let memory := Memory.holding 64 (utf8 "f")
    (call.perform host Session.initial memory).answer ≠ .ok 0 ∧
      call.LeavesAsWas host Session.initial memory (call.perform host Session.initial memory) := by
  intro call host memory
  have hfails : (call.perform host Session.initial memory).answer ≠ .ok 0 := by decide
  exact ⟨hfails, Session.reachable_initial.leavesAsWas host call memory hfails⟩

/-- `argsGet` stores the strings one after the other, each before the word that points to it: if a
pointer cannot be stored, its string has been. -/
theorem argsGet_stores_before_failing :
    ¬ ∀ (s : Session) (host : Host) (call : Call) (memory : Memory), s.Reachable →
      (call.perform host s memory).answer ≠ .ok 0 → call.name ≠ .fdRead →
        (call.perform host s memory).memory = memory := by
  intro h
  let s := Session.initial.withOptions { arguments := ["a"] }
  let host := Host.ofTree FlatTree.empty
  let memory := Memory.holding 16 []
  have hreachable : s.Reachable :=
    Session.reachable_initial.step (.withOptions { arguments := ["a"] })
  have hsame := h s host (.argsGet 100 0) memory hreachable (by decide) (by decide)
  have hword :
      ((Call.argsGet 100 0).perform host s memory).memory.readU32 0 ≠ memory.readU32 0 := by
    decide
  exact hword (congrArg (fun memory => memory.readU32 0) hsame)

/-- The calls that may fail after they have stored something are exactly those that
`storesPiecemeal`. -/
theorem Call.storesPiecemeal_iff (name : CallName) :
    (∃ call : Call, call.name = name ∧ call.storesPiecemeal = true) ↔
      ∃ (s : Session) (host : Host) (call : Call) (memory : Memory),
        s.Reachable ∧ call.name = name ∧ (call.perform host s memory).answer ≠ .ok 0 ∧
          (call.perform host s memory).memory ≠ memory := by
  constructor
  · rintro ⟨call, rfl, hpieces⟩
    -- the last thing to store is out of bounds, and what comes before it is not
    let options : Options := { arguments := ["a"], environment := [("a", "b")], stdin := [1, 2] }
    let s := Session.initial.withOptions options
    let host := Host.ofTree FlatTree.empty
    let memory := Memory.holding 16 []
    let list := Memory.holding 64 [32, 0, 0, 0, 1, 0, 0, 0, 64, 0, 0, 0, 1]
    have hreachable : s.Reachable := Session.reachable_initial.step (.withOptions options)
    cases call with
    | argsGet pointers strings =>
      exact ⟨s, host, .argsGet 16 0, memory, hreachable, rfl, by decide,
        ne_of_apply_ne (fun m => m.readU32 0) (by decide)⟩
    | argsSizesGet count size =>
      exact ⟨s, host, .argsSizesGet 0 16, memory, hreachable, rfl, by decide,
        ne_of_apply_ne (fun m => m.readU32 0) (by decide)⟩
    | environGet pointers strings =>
      exact ⟨s, host, .environGet 16 0, memory, hreachable, rfl, by decide,
        ne_of_apply_ne (fun m => m.readU32 0) (by decide)⟩
    | environSizesGet count size =>
      exact ⟨s, host, .environSizesGet 0 16, memory, hreachable, rfl, by decide,
        ne_of_apply_ne (fun m => m.readU32 0) (by decide)⟩
    | fdRead fd buffers count address =>
      exact ⟨s, host, .fdRead Fd.stdin 0 2 48, list, hreachable, rfl, by decide,
        ne_of_apply_ne (fun m => m.readU32 32) (by decide)⟩
    | _ => cases hpieces
  · rintro ⟨s, host, call, memory, hs, rfl, hfails, hchanged⟩
    -- a call that stores its results at once leaves the memory as it was
    obtain ⟨_, _, _, hmemory⟩ := Call.perform_of_answer_ne_zero hs.sound hfails
    refine ⟨call, rfl, ?_⟩
    cases hpieces : call.storesPiecemeal with
    | true => rfl
    | false => exact absurd (hmemory hpieces) hchanged

end WasiHost
