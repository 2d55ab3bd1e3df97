import WasiHost.Call.Basic

/-!
# Calls and the words they are read from

A call read from a name and raw integers is the call of that name with those integers, and there is
such a call exactly if the integers are as many as the call takes and none is wider than its
argument. Three calls have arguments that may fill a whole integer; all other arguments are words of
32 bits.

* **`Call.words`** — the integers of a call.
* **`Call.ofWords?_eq_some_iff`** — reading is the inverse of writing out.
* **`CallName.Accepts`**, **`Call.ofWords?_eq_none_iff`** — which integers a call takes.
* **`CallName.ofName?_eq_some_iff`** — a name means at most one call.
-/

namespace WasiHost

namespace CallName

/-- The positions of the arguments that may be of 64 bits. -/
def wide : CallName → List Nat
  | clockTimeGet | fdSeek => [1]
  | pathOpen => [5, 6]
  | _ => []

/-- Whether a call takes these integers: as many as it has arguments, and none too wide for its own.
The resolution of a clock can be asked for with one argument or with two. -/
structure Accepts (name : CallName) (words : List UInt64) : Prop where
  length : words.length = name.arity ∨ name = .clockResGet ∧ words.length = 2
  /-- Each integer comes with its position. -/
  fits : ∀ p ∈ words.zipIdx, p.2 ∉ name.wide → p.1.toNat < UInt32.size

/-- `Accepts` is a conjunction of two things that can be computed. -/
theorem accepts_iff {name : CallName} {words : List UInt64} :
    name.Accepts words ↔
      (words.length = name.arity ∨ name = .clockResGet ∧ words.length = 2) ∧
        ∀ p ∈ words.zipIdx, p.2 ∉ name.wide → p.1.toNat < UInt32.size :=
  ⟨fun h => ⟨h.length, h.fits⟩, fun h => ⟨h.1, h.2⟩⟩

instance (name : CallName) (words : List UInt64) : Decidable (name.Accepts words) :=
  decidable_of_iff' _ accepts_iff

/-- `ofName?` finds every call under its own `name`. -/
theorem ofName?_name (c : CallName) : ofName? c.name = some c := by
  cases c <;> rfl

/-- `ofName?` finds the call of a name and no other. -/
theorem ofName?_eq_some_iff {name : String} {c : CallName} :
    ofName? name = some c ↔ c.name = name := by
  constructor
  · intro h
    simpa using List.find?_some h
  · rintro rfl
    exact ofName?_name c

theorem name_inj {c d : CallName} (h : c.name = d.name) : c = d := by
  have hname := ofName?_name c
  rw [h, ofName?_name d] at hname
  exact (Option.some.inj hname).symm

theorem ofName?_eq_none_iff {name : String} :
    ofName? name = none ↔ ∀ c : CallName, c.name ≠ name := by
  constructor
  · intro h c hname
    rw [ofName?_eq_some_iff.mpr hname] at h
    cases h
  · intro h
    cases hname : ofName? name with
    | none => rfl
    | some c => exact absurd (ofName?_eq_some_iff.mp hname) (h c)

end CallName

namespace Call

/-! ## Writing out and reading

`Call.words` and `Call.ofWords?` are inverse to one another, name by name. -/

/-- The integers of a call, in the order of its arguments. -/
def words : Call → List UInt64
  | argsGet a b | argsSizesGet a b | environGet a b | environSizesGet a b | clockResGet a b
  | fdFdstatGet a b | fdFdstatSetFlags a b | fdPrestatGet a b | randomGet a b =>
    [a.toUInt64, b.toUInt64]
  | clockResolution a | fdClose a | procExit a => [a.toUInt64]
  | clockTimeGet clock precision address => [clock.toUInt64, precision, address.toUInt64]
  | fdPrestatDirName a b c => [a.toUInt64, b.toUInt64, c.toUInt64]
  | fdRead a b c d | fdWrite a b c d => [a.toUInt64, b.toUInt64, c.toUInt64, d.toUInt64]
  | fdSeek fd offset whence address =>
    [fd.toUInt64, offset.toUInt64, whence.toUInt64, address.toUInt64]
  | pathFilestatGet a b c d e => [a.toUInt64, b.toUInt64, c.toUInt64, d.toUInt64, e.toUInt64]
  | pathOpen fd dirFlags path pathLength openFlags rightsBase rightsInheriting fdFlags address =>
    [fd.toUInt64, dirFlags.toUInt64, path.toUInt64, pathLength.toUInt64, openFlags.toUInt64,
      rightsBase, rightsInheriting, fdFlags.toUInt64, address.toUInt64]

/-- `narrow?` finds the word that an integer is the value of. -/
theorem narrow?_eq_some_iff {n : UInt64} {m : UInt32} : narrow? n = some m ↔ m.toUInt64 = n := by
  unfold narrow?
  split
  · next h =>
    -- a narrow integer survives the way to a word and back
    have hback : n.toUInt32.toUInt64 = n := by
      apply UInt64.toNat_inj.mp
      rw [UInt32.toNat_toUInt64, UInt64.toNat_toUInt32]
      exact Nat.mod_eq_of_lt h
    rw [Option.some.injEq]
    constructor
    · rintro rfl
      exact hback
    · rintro rfl
      exact UInt32.toUInt32_toUInt64 m
  · next h =>
    constructor
    · intro heq
      cases heq
    · rintro rfl
      rw [UInt32.toNat_toUInt64] at h
      exact absurd m.toNat_lt_size h

theorem narrow?_toUInt64 (n : UInt32) : narrow? n.toUInt64 = some n :=
  narrow?_eq_some_iff.mpr rfl

/-- A call is read back from `Call.words`. -/
theorem ofWords?_words (call : Call) : ofWords? call.name call.words = some call := by
  cases call <;> simp [name, words, ofWords?, narrow?_toUInt64]

/-- `ofWords?` reads a call from its own name and `words`, and from no others. -/
theorem ofWords?_eq_some_iff {name : CallName} {words : List UInt64} {call : Call} :
    ofWords? name words = some call ↔ call.name = name ∧ call.words = words := by
  constructor
  · intro h
    -- the offset of a seek is signed, and has the octets of its integer
    have hoffset (n : UInt64) : n.toInt64.toUInt64 = n := rfl
    unfold ofWords? at h
    split at h <;>
      -- each argument was read by `narrow?`, so its integer is known
      simp only [Option.bind_eq_bind, Option.bind_eq_some_iff, narrow?_eq_some_iff,
        Option.pure_def, Option.some.injEq, reduceCtorEq] at h
    all_goals grind [Call.name, Call.words]
  · rintro ⟨rfl, rfl⟩
    exact ofWords?_words call

/-! ## Which integers can be read

Reading fails on a wrong number of integers and on one that is too wide, and on nothing else. For
that a call is made of whatever integers are accepted (`exists_of_accepts`). -/

theorem accepts_words (call : Call) : call.name.Accepts call.words := by
  constructor
  · cases call with
    | clockResGet clock address => exact .inr ⟨rfl, rfl⟩
    | _ => exact .inl rfl
  · cases call <;> simp [words, name, CallName.wide, UInt32.toNat_lt_size]

/-- An integer at a position that is not in `CallName.wide` is that of a word. -/
theorem exists_toUInt64_of_accepts {c : CallName} {words : List UInt64} (haccepts : c.Accepts words)
    (i : Nat) {n : UInt64} (hget : words[i]? = some n) (hi : i ∉ c.wide) :
    ∃ m : UInt32, m.toUInt64 = n :=
  have hfits := haccepts.fits (n, i) (List.mem_zipIdx_iff_getElem?.mpr hget) hi
  ⟨n.toUInt32, narrow?_eq_some_iff.mp (if_pos hfits)⟩

/-- Integers none of which may be `wide` are those of as many words. -/
theorem exists_map_of_accepts {c : CallName} {words : List UInt64} (haccepts : c.Accepts words)
    (hwide : c.wide = []) :
    ∃ narrow : List UInt32, words = narrow.map UInt32.toUInt64 := by
  have hnarrow : ∀ n ∈ words, ∃ m : UInt32, m.toUInt64 = n := by
    intro n hn
    obtain ⟨i, hi⟩ := List.mem_iff_getElem?.mp hn
    exact exists_toUInt64_of_accepts haccepts i hi (by rw [hwide]; exact List.not_mem_nil)
  -- the rest is about the integers one by one, whatever call they are for
  clear haccepts
  induction words with
  | nil => exact ⟨[], rfl⟩
  | cons n rest ih =>
    obtain ⟨⟨m, rfl⟩, hrest⟩ := List.forall_mem_cons.mp hnarrow
    obtain ⟨narrow, rfl⟩ := ih hrest
    exact ⟨m :: narrow, rfl⟩

/-- Whatever integers a call takes are those of some call: `Accepts` has as many of them as there
are arguments, and `narrow?` gives the words back. -/
theorem exists_of_accepts {c : CallName} {words : List UInt64} (haccepts : c.Accepts words) :
    ∃ call : Call, call.name = c ∧ call.words = words := by
  have hlength := haccepts.length
  by_cases hwide : c.wide = []
  · obtain ⟨narrow, rfl⟩ := exists_map_of_accepts haccepts hwide
    rw [List.length_map] at hlength
    rcases hlength with hlength | ⟨rfl, hlength⟩
    · -- as many integers as the call has arguments
      cases c with
      | argsGet => match narrow, hlength with | [a, b], _ => exact ⟨.argsGet a b, rfl, rfl⟩
      | argsSizesGet =>
        match narrow, hlength with | [a, b], _ => exact ⟨.argsSizesGet a b, rfl, rfl⟩
      | environGet => match narrow, hlength with | [a, b], _ => exact ⟨.environGet a b, rfl, rfl⟩
      | environSizesGet =>
        match narrow, hlength with | [a, b], _ => exact ⟨.environSizesGet a b, rfl, rfl⟩
      | clockResGet => match narrow, hlength with | [a], _ => exact ⟨.clockResolution a, rfl, rfl⟩
      | clockTimeGet => cases hwide
      | fdClose => match narrow, hlength with | [a], _ => exact ⟨.fdClose a, rfl, rfl⟩
      | fdFdstatGet => match narrow, hlength with | [a, b], _ => exact ⟨.fdFdstatGet a b, rfl, rfl⟩
      | fdFdstatSetFlags =>
        match narrow, hlength with | [a, b], _ => exact ⟨.fdFdstatSetFlags a b, rfl, rfl⟩
      | fdPrestatGet =>
        match narrow, hlength with | [a, b], _ => exact ⟨.fdPrestatGet a b, rfl, rfl⟩
      | fdPrestatDirName =>
        match narrow, hlength with | [a, b, c], _ => exact ⟨.fdPrestatDirName a b c, rfl, rfl⟩
      | fdRead =>
        match narrow, hlength with | [a, b, c, d], _ => exact ⟨.fdRead a b c d, rfl, rfl⟩
      | fdSeek => cases hwide
      | fdWrite =>
        match narrow, hlength with | [a, b, c, d], _ => exact ⟨.fdWrite a b c d, rfl, rfl⟩
      | pathFilestatGet =>
        match narrow, hlength with
        | [a, b, c, d, e], _ => exact ⟨.pathFilestatGet a b c d e, rfl, rfl⟩
      | pathOpen => cases hwide
      | procExit => match narrow, hlength with | [a], _ => exact ⟨.procExit a, rfl, rfl⟩
      | randomGet => match narrow, hlength with | [a, b], _ => exact ⟨.randomGet a b, rfl, rfl⟩
    · -- the other form of the call for the resolution
      match narrow, hlength with | [a, b], _ => exact ⟨.clockResGet a b, rfl, rfl⟩
  · -- the three calls that take wide integers
    have hnarrow := @exists_toUInt64_of_accepts _ _ haccepts
    rcases hlength with hlength | ⟨rfl, _⟩
    · cases c with
      | clockTimeGet =>
        match words, hlength with
        | [a, b, c], _ =>
          obtain ⟨a, rfl⟩ := hnarrow 0 rfl (by decide)
          obtain ⟨c, rfl⟩ := hnarrow 2 rfl (by decide)
          exact ⟨.clockTimeGet a b c, rfl, rfl⟩
      | fdSeek =>
        match words, hlength with
        | [a, b, c, d], _ =>
          obtain ⟨a, rfl⟩ := hnarrow 0 rfl (by decide)
          obtain ⟨c, rfl⟩ := hnarrow 2 rfl (by decide)
          obtain ⟨d, rfl⟩ := hnarrow 3 rfl (by decide)
          exact ⟨.fdSeek a b.toInt64 c d, rfl, rfl⟩
      | pathOpen =>
        match words, hlength with
        | [a, b, c, d, e, f, g, h, i], _ =>
          obtain ⟨a, rfl⟩ := hnarrow 0 rfl (by decide)
          obtain ⟨b, rfl⟩ := hnarrow 1 rfl (by decide)
          obtain ⟨c, rfl⟩ := hnarrow 2 rfl (by decide)
          obtain ⟨d, rfl⟩ := hnarrow 3 rfl (by decide)
          obtain ⟨e, rfl⟩ := hnarrow 4 rfl (by decide)
          obtain ⟨h, rfl⟩ := hnarrow 7 rfl (by decide)
          obtain ⟨i, rfl⟩ := hnarrow 8 rfl (by decide)
          exact ⟨.pathOpen a b c d e f g h i, rfl, rfl⟩
      | _ => exact absurd rfl hwide
    · exact absurd rfl hwide

/-- `ofWords?` reads nothing exactly if the call does not `Accepts` the integers. -/
theorem ofWords?_eq_none_iff {c : CallName} {words : List UInt64} :
    ofWords? c words = none ↔ ¬ c.Accepts words := by
  constructor
  · intro h haccepts
    obtain ⟨call, hname, hwords⟩ := exists_of_accepts haccepts
    rw [ofWords?_eq_some_iff.mpr ⟨hname, hwords⟩] at h
    cases h
  · intro h
    cases hread : ofWords? c words with
    | none => rfl
    | some call =>
      obtain ⟨rfl, rfl⟩ := ofWords?_eq_some_iff.mp hread
      exact absurd (accepts_words call) h

end Call

end WasiHost
