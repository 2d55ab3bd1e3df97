import WasiHost.Proofs.Session.Run

/-!
# Standard input is delivered as it was queued

Standard input is a queue. Octets come in when the host queues them, and only a read of descriptor
zero that succeeds takes octets out: as many from the front as are there and fit in its buffers. So
whatever else happens in between, what was queued is what was taken and what is left, in order.

* **`Session.consumed`**, **`Session.consumedIn`** — what a step or a run takes off the queue.
* **`Session.stdin_eq_of_not_read`** — nothing else touches the queue.
* **`Session.queued_eq_consumedIn_append`** — the conservation law for runs.
* **`Session.standardInput_conserved`** — the law, with what each read delivers.
-/

namespace WasiHost

namespace Session

/-- What a step takes off the queue: a read of standard input that succeeds takes as many octets as
are there and fit in its buffers, and any other step takes none. -/
def consumed (s : Session) (step : Step) : Bytes :=
  match step.performed? with
  | some (host, .fdRead fd buffers count address, memory) =>
    if fd = Fd.stdin ∧
        ((Call.fdRead fd buffers count address).perform host s memory).answer = .ok 0 then
      match memory.buffers? buffers count address with
      | some vectors => s.stdin.take (min s.stdin.length (IoVec.room vectors))
      | none => []
    else []
  | _ => []

/-- What the steps of a run take off the queue, one after the other. -/
def consumedIn (s : Session) : List Step → Bytes
  | [] => []
  | step :: rest => s.consumed step ++ (s.step step).consumedIn rest

/-- A reply to a read of standard input has taken octets off the front of the queue, as many as are
there and fit in the buffers, has stored their number and has delivered them. -/
structure TakesStdin (s : Session) (memory : Memory) (vectors : List IoVec) (address moved : UInt32)
    (reply : Reply) : Prop where
  most : moved.toNat = min s.stdin.length (IoVec.room vectors)
  left : reply.session.stdin = s.stdin.drop moved.toNat
  stored : reply.memory.readU32 address = .ok moved
  delivered : memory.Delivers vectors address (s.stdin.take moved.toNat) reply.memory

variable {s s' : Session} {host : Host} {call : Call} {memory : Memory} {fd : Fd}
  {buffers count address : UInt32}

/-! ## One call

A read that takes octets, and everything else, which takes none. `Session.Moves` has one way with a
change of the queue. -/

/-- `fdRead` of standard input that succeeds takes octets off the queue. -/
theorem takes_of_read_stdin (hsound : s.table.Sound)
    (hzero : ((Call.fdRead Fd.stdin buffers count address).perform host s memory).answer = .ok 0) :
    ∃ (vectors : List IoVec) (moved : UInt32),
      memory.buffers? buffers count address = some vectors ∧
        s.TakesStdin memory vectors address moved
          ((Call.fdRead Fd.stdin buffers count address).perform host s memory) := by
  obtain ⟨w, hrun⟩ := Call.run_of_answer_eq_zero rfl hzero
  obtain ⟨_, vectors, data, hbuffers, hserves, hdelivers⟩ := Action.fdRead_eq_ok hrun
  obtain ⟨_, hsession, hmemory⟩ := Call.perform_of_ok hrun
  -- what was served, in terms of the reply
  change s.Serves host Fd.stdin vectors data w.session at hserves
  rw [← hmemory] at hdelivers
  rw [← hsession] at hserves
  generalize hleft : ((Call.fdRead Fd.stdin buffers count address).perform host s
    memory).session = s' at hserves
  cases hserves with
  | stdin k hget hk =>
    have hlength : (s.stdin.take k).length = k := by
      rw [List.length_take]
      omega
    have hword : (UInt32.ofNat k).toNat = k := by
      rw [UInt32.toNat_ofNat']
      exact Nat.mod_eq_of_lt (hlength ▸ hdelivers.length_lt)
    have hcount := hdelivers.count
    rw [hlength] at hcount
    refine ⟨vectors, UInt32.ofNat k, hbuffers, ⟨?_, ?_, hcount, ?_⟩⟩
    · rw [hword, hk]
    · rw [hword, hleft]
    · rw [hword]
      exact hdelivers
  | file path offset content status bytes moved hget _ _ =>
    -- descriptor zero is standard input for the whole session
    rw [hsound.stdin] at hget
    cases hget

/-- `Moves` of anything but a successful `fdRead` of `Fd.stdin` takes no octets off the queue, nor
does it put any on. -/
theorem Moves.stdin_eq {succeeded : Bool} (h : s.Moves host call succeeded s')
    (hsound : s.table.Sound)
    (hread : ∀ buffers count address, call = .fdRead Fd.stdin buffers count address →
      succeeded = false) :
    s'.stdin = s.stdin := by
  cases h with
  | serves fd buffers count address vectors data _ hserves =>
    cases hserves with
    | stdin k hget hk =>
      -- the queue is served under descriptor zero only
      have hfd := hsound.eq_stdin hget
      cases hread buffers count address (by rw [hfd])
    | file => rfl
  | _ => rfl

/-- `perform` of any other call, or of a read that has failed, leaves the queue alone. -/
theorem stdin_eq_of_not_read (hsound : s.table.Sound)
    (hread : ∀ buffers count address, call = .fdRead Fd.stdin buffers count address →
      (call.perform host s memory).answer ≠ .ok 0) :
    (call.perform host s memory).session.stdin = s.stdin := by
  obtain ⟨succeeded, hmoves, hanswer⟩ := Call.perform_moves host call memory hsound
  refine hmoves.stdin_eq hsound fun buffers count address heq => ?_
  cases succeeded with
  | false => rfl
  | true =>
    refine absurd (hanswer rfl) ?_
    subst heq
    exact hread buffers count address rfl

/-! ## Runs

The law is an equation between the octets queued and those consumed or left. `stdin_append_queued`
is the law of one step. -/

/-- A step neither loses, nor doubles, nor reorders octets: what was there and what is `queued` is
what is `consumed` and what is left. -/
theorem stdin_append_queued (hsound : s.table.Sound) (step : Step) :
    s.stdin ++ step.queued = s.consumed step ++ (s.step step).stdin := by
  cases hstep : step.performed? with
  | none =>
    rw [(step_of_not_performed hstep s).1, consumed, hstep, List.nil_append]
  | some performed =>
    obtain ⟨host, call, memory⟩ := performed
    obtain ⟨hsession, hqueued, _⟩ := step_of_performed hstep s
    rw [hsession, hqueued, List.append_nil]
    -- only a successful read of descriptor zero takes anything, and it takes a prefix
    by_cases hread : ∃ buffers count address, call = .fdRead Fd.stdin buffers count address ∧
        (call.perform host s memory).answer = .ok 0
    · obtain ⟨buffers, count, address, rfl, hzero⟩ := hread
      obtain ⟨vectors, moved, hbuffers, htakes⟩ := takes_of_read_stdin hsound hzero
      have hconsumed : s.consumed step = s.stdin.take moved.toNat := by
        rw [consumed, hstep]
        simp only [hzero, hbuffers, htakes.most, and_self, if_true]
      rw [hconsumed, htakes.left, List.take_append_drop]
    · have hnothing : s.consumed step = [] := by
        rw [consumed, hstep]
        split
        · next fd buffers count address memory' heq =>
          cases heq
          rw [if_neg]
          rintro ⟨rfl, hzero⟩
          exact hread ⟨buffers, count, address, rfl, hzero⟩
        · rfl
      rw [hnothing, List.nil_append, stdin_eq_of_not_read hsound]
      intro buffers count address heq hzero
      exact hread ⟨buffers, count, address, heq, hzero⟩

/-- The same of a run, by induction on `steps`. -/
theorem queued_eq_consumedIn_append (hsound : s.table.Sound) (steps : List Step) :
    s.stdin ++ steps.flatMap Step.queued = s.consumedIn steps ++ (s.run steps).stdin := by
  -- each step moves what it consumes from the front of the queue to the end of what was consumed
  induction steps generalizing s with
  | nil => simp [consumedIn]
  | cons step rest ih =>
    calc s.stdin ++ (step :: rest).flatMap Step.queued
        = (s.stdin ++ step.queued) ++ rest.flatMap Step.queued := by
          rw [List.flatMap_cons, List.append_assoc]
      _ = s.consumed step ++ ((s.step step).stdin ++ rest.flatMap Step.queued) := by
          rw [stdin_append_queued hsound step, List.append_assoc]
      _ = s.consumed step ++ ((s.step step).consumedIn rest ++ ((s.step step).run rest).stdin) := by
          rw [ih (sound_step hsound step)]
      _ = s.consumedIn (step :: rest) ++ (s.run (step :: rest)).stdin := by
          rw [consumedIn, run_cons, List.append_assoc]

/-- After any run, all octets `queued` so far are those that reads of standard input have consumed,
in order, and those still queued. A read that succeeds consumes as many as are queued and fit in its
buffers, stores their number, and delivers them; any other call consumes none. -/
theorem standardInput_conserved (steps : List Step) :
    steps.flatMap Step.queued = initial.consumedIn steps ++ (initial.run steps).stdin ∧
      (∀ (host : Host) (buffers count address : UInt32) (memory : Memory),
        ((Call.fdRead Fd.stdin buffers count address).perform host (initial.run steps)
            memory).answer = .ok 0 →
          ∃ (vectors : List IoVec) (moved : UInt32),
            memory.buffers? buffers count address = some vectors ∧
              (initial.run steps).TakesStdin memory vectors address moved
                ((Call.fdRead Fd.stdin buffers count address).perform host (initial.run steps)
                  memory)) ∧
      ∀ (host : Host) (call : Call) (memory : Memory),
        (∀ buffers count address, call = .fdRead Fd.stdin buffers count address →
          (call.perform host (initial.run steps) memory).answer ≠ .ok 0) →
        (call.perform host (initial.run steps) memory).session.stdin =
          (initial.run steps).stdin := by
  have hsound := (reachable_initial.run steps).sound
  refine ⟨?_, ?_, ?_⟩
  · have hlaw := queued_eq_consumedIn_append reachable_initial.sound steps
    rwa [show initial.stdin = [] from rfl, List.nil_append] at hlaw
  · intro host buffers count address memory hzero
    exact takes_of_read_stdin hsound hzero
  · intro host call memory hread
    exact stdin_eq_of_not_read hsound hread

/-- Of three octets an `fdRead` into a buffer of two takes the first two. -/
theorem standardInput_conserved_of_partly_read :
    let host := Host.ofTree FlatTree.empty
    let list := Memory.holding 64 [16, 0, 0, 0, 2]
    let s := initial.run [.pushStdin [10, 20, 30]]
    ∃ (vectors : List IoVec) (moved : UInt32), list.buffers? 0 1 32 = some vectors ∧
      s.TakesStdin list vectors 32 moved ((Call.fdRead Fd.stdin 0 1 32).perform host s list) := by
  intro host list s
  have hzero : ((Call.fdRead Fd.stdin 0 1 32).perform host s list).answer = .ok 0 := by decide
  exact (standardInput_conserved [.pushStdin [10, 20, 30]]).2.1 host 0 1 32 list hzero

end Session

end WasiHost
