import Mathlib.Data.List.Basic
import Mathlib.Data.List.TakeDrop
import Mathlib.Data.List.TakeWhile
import WasiHost.CommandLine.Settings
import WasiHost.Proofs.Text.Utf8

/-!
# Variables on the command line

An entry for the environment is divided at its first equals sign, and what comes of it is the only
name without an equals sign and the only value that make up the entry. So nothing is lost, however
many further signs there are, and a guest that divides the octets of a variable at the first sign
finds the same name and the same value. An entry without a sign makes the whole command line fail.

* **`splitVariable?_eq_some_iff`**, **`splitVariable?_eq_none_iff`** — how one entry is divided.
* **`divideVariable?_utf8`**, **`dividesInto_iff`** — how a guest divides its octets.
* **`Settings.splitVariables_eq`**, **`Settings.dividesInto_filterMap`** — a list of entries.
* **`Invocation.parse_variables`** — every list of entries can be given on the command line.
-/

namespace WasiHost

/-! ## Division at a sign

`List.span` divides a list where a predicate first fails. These lemmas tell what the two parts are
when the predicate is to be different from one element. -/

section

variable {α : Type} [DecidableEq α] {a c : α} {list before after : List α}

/-- A list is divided at the first `a`, wherever the part before it has none. -/
theorem span_ne_append (h : a ∉ before) :
    (before ++ a :: after).span (· ≠ a) = (before, a :: after) := by
  have hbefore : ∀ b ∈ before, decide (b ≠ a) = true := by
    intro b hb
    exact decide_eq_true fun heq => h (heq ▸ hb)
  rw [List.span_eq_takeWhile_dropWhile, List.takeWhile_append_of_pos hbefore,
    List.dropWhile_append_of_pos hbefore]
  simp

/-- What it is divided into puts the list together again, with `a` in between. -/
theorem span_ne_eq_cons (h : list.span (· ≠ a) = (before, c :: after)) :
    a ∉ before ∧ list = before ++ a :: after := by
  rw [List.span_eq_takeWhile_dropWhile, Prod.mk.injEq] at h
  obtain ⟨hbefore, hafter⟩ := h
  have hnot : a ∉ before := by
    intro hmem
    rw [← hbefore] at hmem
    -- a member of the first part is different from `a`, even if it is `a`
    have hother := List.mem_takeWhile_imp hmem
    exact of_decide_eq_true hother rfl
  have hsign : c = a := by
    have hne : list.dropWhile (· ≠ a) ≠ [] := by
      rw [hafter]
      nofun
    have hhead := List.head_dropWhile_not (fun b => decide (b ≠ a)) hne
    simp only [hafter, List.head_cons] at hhead
    exact Decidable.of_not_not (of_decide_eq_false hhead)
  refine ⟨hnot, ?_⟩
  rw [← List.takeWhile_append_dropWhile (p := fun b => decide (b ≠ a)) (l := list), hbefore, hafter,
    hsign]

/-- If there is nothing to divide, then there is no `a`. -/
theorem span_ne_eq_nil (h : list.span (· ≠ a) = (before, [])) : a ∉ list := by
  rw [List.span_eq_takeWhile_dropWhile, Prod.mk.injEq, List.dropWhile_eq_nil_iff] at h
  intro hmem
  exact of_decide_eq_true (h.2 a hmem) rfl

end

/-- A variable as one text. -/
def variableText (pair : String × String) : String :=
  pair.1 ++ "=" ++ pair.2

/-- The characters of `variableText`: the name, the sign and the value. -/
theorem toList_variableText (pair : String × String) :
    (variableText pair).toList = pair.1.toList ++ '=' :: pair.2.toList := by
  rw [variableText, String.toList_append, String.toList_append, List.append_assoc]
  rfl

/-- `splitVariable?` divides an entry into the only name without an equals sign and the only value
that it can be put together from. -/
theorem splitVariable?_eq_some_iff {entry : String} {pair : String × String} :
    splitVariable? entry = some pair ↔ '=' ∉ pair.1.toList ∧ entry = variableText pair := by
  constructor
  · intro h
    rw [splitVariable?] at h
    split at h
    · next name c value hspan =>
      obtain ⟨hname, hentry⟩ := span_ne_eq_cons hspan
      cases h
      refine ⟨by rwa [String.toList_ofList], ?_⟩
      rw [← String.toList_inj, toList_variableText, hentry, String.toList_ofList,
        String.toList_ofList]
    · cases h
  · rintro ⟨hname, rfl⟩
    rw [splitVariable?, toList_variableText, span_ne_append hname]
    simp only [String.ofList_toList]

/-- `splitVariable?` fails only on an entry without an equals sign. -/
theorem splitVariable?_eq_none_iff {entry : String} :
    splitVariable? entry = none ↔ '=' ∉ entry.toList := by
  constructor
  · intro h
    rw [splitVariable?] at h
    split at h
    · cases h
    · next name hspan => exact span_ne_eq_nil hspan
  · intro h
    cases hsplit : splitVariable? entry with
    | none => rfl
    | some pair =>
      obtain ⟨-, hentry⟩ := splitVariable?_eq_some_iff.mp hsplit
      rw [hentry, toList_variableText] at h
      exact absurd (List.mem_append_right _ List.mem_cons_self) h

/-! ## The guest

A guest has octets and not characters, and looks for the octet of the sign. That it finds the sign
of the name and no other is a matter of UTF-8: `Utf8.not_mem_utf8`. -/

/-- How a guest divides the octets of a variable: at the first equals sign. -/
def divideVariable? (octets : Bytes) : Option (Bytes × Bytes) :=
  match octets.span (· ≠ 0x3d) with
  | (name, _ :: value) => some (name, value)
  | (_, []) => none

/-- The octets of `variableText`. The sign is the octet `0x3d`, which is part of no other
character. -/
theorem utf8_variableText (pair : String × String) :
    utf8 (variableText pair) = utf8 pair.1 ++ 0x3d :: utf8 pair.2 := by
  have hsign : utf8 "=" = [0x3d] := by decide
  rw [variableText, utf8_append, utf8_append, hsign, List.append_assoc, List.singleton_append]

/-- If the name has no equals sign then `divideVariable?`, as a guest does it, finds the name and
the value. -/
theorem divideVariable?_utf8 {pair : String × String} (h : '=' ∉ pair.1.toList) :
    divideVariable? (utf8 (variableText pair)) = some (utf8 pair.1, utf8 pair.2) := by
  rw [divideVariable?, utf8_variableText, span_ne_append (Utf8.not_mem_utf8 (by decide) rfl h)]

/-! ## A list of entries

Entries are divided one by one up to the first that has no sign, and that one is the error of
all. -/

/-- An entry and the name and the value that a guest finds in it: the octets of the entry divide
into those of the name and those of the value. -/
structure DividesInto (entry : String) (pair : String × String) : Prop where
  whole : variableText pair = entry
  noSign : '=' ∉ pair.1.toList
  found : divideVariable? (utf8 entry) = some (utf8 pair.1, utf8 pair.2)

/-- `splitVariable?` divides an entry as a guest does, who sees octets only. -/
theorem dividesInto_iff {entry : String} {pair : String × String} :
    DividesInto entry pair ↔ splitVariable? entry = some pair := by
  rw [splitVariable?_eq_some_iff]
  constructor
  · intro h
    exact ⟨h.noSign, h.whole.symm⟩
  · rintro ⟨hname, rfl⟩
    exact ⟨rfl, hname, divideVariable?_utf8 hname⟩

namespace Settings

/-- The first entry without an equals sign, if there is one. -/
def undivided? (entries : List String) : Option String :=
  entries.find? fun entry => '=' ∉ entry.toList

/-- `splitVariables` divides all entries, or fails at the first that has no equals sign. -/
theorem splitVariables_eq (entries : List String) :
    splitVariables entries = match undivided? entries with
      | some entry => .error (.noValue entry)
      | none => .ok (entries.filterMap splitVariable?) := by
  induction entries with
  | nil => rfl
  | cons entry rest ih =>
    rw [splitVariables]
    -- the first entry decides, or it is divided and the rest decides
    cases hsplit : splitVariable? entry with
    | none =>
      have hnone := decide_eq_true (splitVariable?_eq_none_iff.mp hsplit)
      simp only [undivided?, List.find?_cons, hnone]
    | some pair =>
      have hsome : decide ('=' ∉ entry.toList) = false := by
        rw [decide_eq_false_iff_not, ← splitVariable?_eq_none_iff, hsplit]
        nofun
      rw [undivided?] at ih
      simp only [undivided?, List.find?_cons, hsome, ih, List.filterMap_cons, hsplit]
      cases rest.find? fun entry => '=' ∉ entry.toList <;> rfl

/-- `undivided?` finds no entry exactly if all have an equals sign. -/
theorem undivided?_eq_none_iff {entries : List String} :
    undivided? entries = none ↔ ∀ entry ∈ entries, '=' ∈ entry.toList := by
  simp [undivided?]

/-- Entries that all have an equals sign divide into what `splitVariable?` makes of them. -/
theorem dividesInto_filterMap {entries : List String}
    (h : ∀ entry ∈ entries, '=' ∈ entry.toList) :
    List.Forall₂ DividesInto entries (entries.filterMap splitVariable?) := by
  induction entries with
  | nil => exact .nil
  | cons entry rest ih =>
    obtain ⟨hentry, hrest⟩ := List.forall_mem_cons.mp h
    cases hsplit : splitVariable? entry with
    | none => exact absurd hentry (splitVariable?_eq_none_iff.mp hsplit)
    | some pair =>
      rw [List.filterMap_cons, hsplit]
      exact .cons (dividesInto_iff.mpr hsplit) (ih hrest)

end Settings

/-! ## The command line

Options are read one argument after the other. An argument of the form `--env=…` adds its value to
what is given, and nothing in the value can end it. -/

/-- An argument that gives an option its value after an equals sign. -/
def assignment (name value : String) : String :=
  "--" ++ name ++ "=" ++ value

/-- The characters of `assignment`: two dashes, the name, the sign and the value. -/
theorem toList_assignment (name value : String) :
    (assignment name value).toList = '-' :: '-' :: (name.toList ++ '=' :: value.toList) := by
  simp [assignment]

namespace GivenOptions

/-- `readAll` takes for the value all that follows the first equals sign. -/
theorem readAll_assignment {given given' : GivenOptions} {name value : String} {setting : Setting}
    (hname : '=' ∉ name.toList) (hlong : CommandOption.ofLongName? name = some (.setting setting))
    (hset : given.set setting value = .ok given') (rest : List String) :
    readAll (given, none) (assignment name value :: rest) = readAll (given', none) rest := by
  have hdashes : assignment name value ≠ "--" := by
    intro heq
    have hlist := toList_assignment name value
    simp [heq] at hlist
  have hread : given.readOption (assignment name value).toList = .ok (given', none) := by
    rw [toList_assignment, readOption, splitValue, span_ne_append hname]
    simp only [List.tail?_cons, Option.map_some, String.ofList_toList]
    simp only [readLong, hlong, hset]
    rfl
  rw [readAll, if_neg hdashes, hread]

/-- `readAll` takes variables over one after the other as they are given, whatever is in them. -/
theorem readAll_variables (given : GivenOptions) (entries : List String) :
    readAll (given, none) (entries.map (assignment "env")) =
      .ok { given with settings := given.settings ++ entries.map (.environment, ·) } := by
  induction entries generalizing given with
  | nil => simp [readAll]
  | cons entry rest ih =>
    have hset : given.set .environment entry =
        .ok { given with settings := given.settings ++ [(.environment, entry)] } :=
      if_pos (.inl rfl)
    rw [List.map_cons, readAll_assignment (by decide) rfl hset, ih]
    simp

end GivenOptions

/-- `parse` accepts every list of entries: each can be given on the command line. -/
theorem Invocation.parse_variables (program config : String) (entries : List String) :
    parse (assignment "program" program :: assignment "config" config ::
      entries.map (assignment "env")) =
      .ok
        { program := program, root := defaultRoot, config := some config, stdinFile := none
          arguments := [], environment := entries, disableClock := false, trace := false } := by
  have hprogram : CommandOption.ofLongName? "program" = some (.setting .program) := rfl
  have hconfig : CommandOption.ofLongName? "config" = some (.setting .config) := rfl
  rw [parse, GivenOptions.readAll_assignment (by decide) hprogram rfl,
    GivenOptions.readAll_assignment (by decide) hconfig rfl, GivenOptions.readAll_variables]
  simp [ofGiven?, GivenOptions.values, GivenOptions.has]

end WasiHost
