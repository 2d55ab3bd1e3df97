import WasiHost.Call.Question
import WasiHost.Proofs.Call.Frames
import WasiHost.Proofs.Text.WellFormed

/-!
# Paths that calls name

A call names a path by a range of guest memory and a directory. The range must hold the octets of a
text, and something must be open under the number that paths can be resolved from.

* **`Memory.Spells`** — a range holds the octets of a text.
* **`Descriptor.base?`** — the path that others are resolved from.
* **`Access.readText_eq_ok_iff`**, **`Session.resolve_eq_ok_iff`**,
  **`Call.namedPath?_eq_some_iff`** — when a text is read, when it is resolved, and both.
* **`Action.resolve_eq_ok_iff`** — the step of a body that does both.
-/

namespace WasiHost

/-- A range of guest memory holds the octets of a text. -/
def Memory.Spells (memory : Memory) (address length : UInt32) (text : String) : Prop :=
  memory.slice address length = .ok (utf8 text)

instance (memory : Memory) (address length : UInt32) (text : String) :
    Decidable (memory.Spells address length text) :=
  inferInstanceAs (Decidable (_ = _))

/-- The path that others are resolved from below a descriptor, if it is a directory. -/
def Descriptor.base? : Descriptor → Option String
  | .preopened base | .directory base _ => some base
  | _ => none

variable {s : Session} {fd : Fd} {memory memory' : Memory} {path length : UInt32}
  {text name : String}

/-- `readText` succeeds exactly on a range that `Spells` the text. -/
theorem Access.readText_eq_ok_iff :
    Access.readText path length memory = .ok text memory' ↔
      memory.Spells path length text ∧ memory' = memory := by
  constructor
  · intro h
    have hsame : memory' = memory := (Access.keeps_readText path length).ok h
    obtain ⟨bytes, memory₁, hslice, hrest⟩ := bind_eq_ok_iff.mp h
    obtain ⟨hslice, rfl⟩ := Access.reading_eq_ok_iff.mp hslice
    refine ⟨?_, hsame⟩
    -- octets that are no text are refused
    cases hdecode : Utf8.decode? bytes with
    | none =>
      rw [hdecode] at hrest
      cases hrest
    | some read =>
      rw [hdecode] at hrest
      cases hrest
      rw [Memory.Spells, hslice, Utf8.decode?_eq_some_iff.mp hdecode]
  · rintro ⟨hspells, rfl⟩
    have hslice : Access.slice path length memory' = .ok (utf8 text) memory' :=
      Access.reading_eq_ok_iff.mpr ⟨hspells, rfl⟩
    rw [Access.readText, bind_of_ok hslice, Utf8.decode?_utf8]
    rfl

/-- A range spells one text at most, since `Access.readText` reads but one. -/
theorem Memory.Spells.unique {text' : String} (h : memory.Spells path length text)
    (h' : memory.Spells path length text') : text = text' := by
  have hread := Access.readText_eq_ok_iff.mpr ⟨h, rfl⟩
  cases hread.symm.trans (Access.readText_eq_ok_iff.mpr ⟨h', rfl⟩)
  rfl

/-- `resolve` goes from descriptors with a `base?` only, and normalizes from there. -/
theorem Session.resolve_eq_ok_iff :
    s.resolve fd text = .ok name ↔
      ∃ d base, s.table.get fd = .ok d ∧ d.base? = some base ∧ name = Path.normalize base text := by
  rw [Session.resolve]
  cases hget : s.table.get fd with
  | error errno => simp
  | ok d => cases d <;> simp [Descriptor.base?, eq_comm]

/-- Where a range `Spells` a text, that text is what `resolve` is given. -/
theorem Action.resolve_of_spells {w : Workspace} (h : w.memory.Spells path length text) :
    Action.resolve fd path length w = Action.lift (w.session.resolve fd text) w := by
  have hread : Action.access (Access.readText path length) w = .ok text w :=
    Action.access_eq_ok_iff.mpr ⟨w.memory, Access.readText_eq_ok_iff.mpr ⟨h, rfl⟩, rfl⟩
  rw [Action.resolve, bind_of_ok hread]
  rfl

/-- `namedPath?` is the path exactly if a text is spelled there and can be resolved. -/
theorem Call.namedPath?_eq_some_iff :
    Call.namedPath? s memory fd path length = some name ↔
      ∃ text, memory.Spells path length text ∧ s.resolve fd text = .ok name := by
  rw [Call.namedPath?]
  constructor
  · intro h
    cases hread : Access.readText path length memory with
    | error e memory' =>
      rw [hread] at h
      cases h
    | ok text memory' =>
      rw [hread] at h
      refine ⟨text, (Access.readText_eq_ok_iff.mp hread).1, ?_⟩
      change (s.resolve fd text).toOption = some name at h
      -- the error number is lost, as only the name is wanted here
      cases hresolve : s.resolve fd text with
      | error errno =>
        rw [hresolve] at h
        cases h
      | ok found =>
        rw [hresolve] at h
        cases h
        rfl
  · rintro ⟨text, hspells, hresolve⟩
    rw [Access.readText_eq_ok_iff.mpr ⟨hspells, rfl⟩]
    simp only [hresolve, Except.toOption]

/-- `resolve` gives `namedPath?`, and does nothing else. -/
theorem Action.resolve_eq_ok_iff {w w' : Workspace} :
    Action.resolve fd path length w = .ok name w' ↔
      Call.namedPath? w.session w.memory fd path length = some name ∧ w' = w := by
  constructor
  · intro h
    -- the workspace is kept, so the range holds the text before and after
    have hsame : w' = w := (Action.keeps_resolve fd path length).ok h
    obtain ⟨text, w₁, hread, _⟩ := bind_eq_ok_iff.mp h
    obtain ⟨memory, hread, _⟩ := Action.access_eq_ok_iff.mp hread
    obtain ⟨htext, _⟩ := Access.readText_eq_ok_iff.mp hread
    rw [Action.resolve_of_spells htext] at h
    obtain ⟨hname, _⟩ := Action.lift_eq_ok_iff.mp h
    exact ⟨Call.namedPath?_eq_some_iff.mpr ⟨text, htext, hname⟩, hsame⟩
  · rintro ⟨hnamed, rfl⟩
    obtain ⟨text, htext, hname⟩ := Call.namedPath?_eq_some_iff.mp hnamed
    rw [Action.resolve_of_spells htext]
    exact Action.lift_eq_ok_iff.mpr ⟨hname, rfl⟩

end WasiHost
