import WasiHost.FileSystem.Path

/-!
# Canonical paths

Resolving a path yields names that are all *proper*: not empty, neither `.` nor `..`, and without a
separator. A path rendered from proper names is read back as exactly these names, whatever the base,
so the canonical form of any path is a fixed point of resolution.

* **`proper_of_mem_names`** — every name on the stack of a resolved path is proper.
* **`names_render`** — proper names are read back from their rendering.
* **`normalize_normalize`** — a canonical form is its own canonical form, from every base.
* **`Canonical`** — a path that is its own canonical form.
* **`canonical_iff_plain`** — how such a path is spelled.
-/

namespace WasiHost

namespace Path

/-- A name that a directory can hold something under. -/
structure Proper (name : Name) : Prop where
  ne_nil : name ≠ []
  ne_dot : name ≠ ['.']
  ne_dotdot : name ≠ ['.', '.']
  no_separator : '/' ∉ name

/-! ## Splitting and joining

`Path.split` is a function to lists that are not empty and whose members have no separator, and
there `Path.join` is its inverse: see `split_join` and, the other way round, `join_split`. -/

theorem split_ne_nil (text : List Char) : split text ≠ [] := by
  cases text with
  | nil => simp [split]
  | cons c rest =>
    rw [split]
    split
    · simp
    · split <;> simp

/-- No component that `split` makes holds a separator. -/
theorem no_separator_of_mem_split (text : List Char) :
    ∀ part ∈ split text, '/' ∉ part := by
  induction text with
  | nil => simp [split]
  | cons c rest ih =>
    rw [split]
    -- a separator begins a new component; any other character belongs to the one that follows
    by_cases hc : c = '/'
    · rw [if_pos hc]
      simpa using ih
    · rw [if_neg hc]
      cases hs : split rest with
      | nil => exact absurd hs (split_ne_nil rest)
      | cons name names =>
        rw [hs] at ih
        intro part hpart
        rcases List.mem_cons.mp hpart with rfl | hpart
        · have := ih name (by simp)
          simp [this, Ne.symm hc]
        · exact ih part (by simp [hpart])

/-- `split` takes off what stands in front of the first separator as it is. -/
theorem split_append_separator (name rest : List Char) (h : '/' ∉ name) :
    split (name ++ '/' :: rest) = name :: split rest := by
  induction name with
  | nil => simp [split]
  | cons c name ih =>
    simp only [List.mem_cons, not_or] at h
    rw [List.cons_append, split, if_neg (Ne.symm h.1), ih h.2]

theorem split_of_no_separator (name : List Char) (h : '/' ∉ name) : split name = [name] := by
  induction name with
  | nil => rfl
  | cons c name ih =>
    simp only [List.mem_cons, not_or] at h
    rw [split, if_neg (Ne.symm h.1), ih h.2]

/-- `split` takes apart what `join` has put together, if no name holds a separator. -/
theorem split_join (names : List Name) (hne : names ≠ []) (h : ∀ name ∈ names, '/' ∉ name) :
    split (join names) = names := by
  -- a separator stands between two names, so the last name is a case of its own
  induction names with
  | nil => exact absurd rfl hne
  | cons name rest ih =>
    cases rest with
    | nil => exact split_of_no_separator name (h name (by simp))
    | cons next rest =>
      have hrest := ih (by simp) fun name' hmem => h name' (List.mem_cons_of_mem _ hmem)
      rw [join, split_append_separator _ _ (h name (by simp)), hrest]
      simp

/-! ## The stack of names

The invariant of `Path.enter` is that every name on the stack is `Proper`. Components come from
`Path.split`, so they have no separator, and the other three conditions are just what `enter` looks
for. -/

/-- A name that is `Proper` is put on the stack as it is. -/
theorem enter_of_proper (stack : List Name) {name : Name} (h : Proper name) :
    enter stack name = name :: stack := by
  rw [enter, if_neg (by simp [h.ne_nil, h.ne_dot]), if_neg h.ne_dotdot]

/-- `enter` keeps every name on the stack `Proper`. -/
theorem proper_of_mem_enter {stack : List Name} {part : Name} (hstack : ∀ n ∈ stack, Proper n)
    (hpart : '/' ∉ part) : ∀ n ∈ enter stack part, Proper n := by
  intro n hn
  rw [enter] at hn
  split at hn
  · exact hstack n hn
  · next hskip =>
    split at hn
    · exact hstack n (List.mem_of_mem_tail hn)
    · next hup =>
      rcases List.mem_cons.mp hn with rfl | hn
      · rw [not_or] at hskip
        exact ⟨hskip.1, hskip.2, hup, hpart⟩
      · exact hstack n hn

/-- So do any components without separators, by `proper_of_mem_enter` for each. -/
theorem proper_of_mem_foldl_enter (parts : List Name) (hparts : ∀ p ∈ parts, '/' ∉ p) :
    ∀ stack : List Name, (∀ n ∈ stack, Proper n) → ∀ n ∈ parts.foldl enter stack, Proper n := by
  induction parts with
  | nil => exact fun stack hstack => hstack
  | cons part rest ih =>
    intro stack hstack
    exact ih (fun p hp => hparts p (List.mem_cons_of_mem _ hp)) _
      (proper_of_mem_enter hstack (hparts part (by simp)))

/-- No component of `parts` holds a separator, those of the base included. -/
theorem no_separator_of_mem_parts (base path : String) : ∀ part ∈ parts base path, '/' ∉ part := by
  intro part hpart
  rw [parts] at hpart
  split at hpart
  · exact no_separator_of_mem_split _ part hpart
  · rcases List.mem_append.mp hpart with hpart | hpart
    · exact no_separator_of_mem_split _ part hpart
    · exact no_separator_of_mem_split _ part hpart

/-- `names` are `Proper`: every name that leads from the root to a path. -/
theorem proper_of_mem_names (base path : String) : ∀ n ∈ names base path, Proper n := by
  intro n hn
  rw [names, List.mem_reverse] at hn
  exact proper_of_mem_foldl_enter _ (no_separator_of_mem_parts base path) [] (by simp) n hn

/-- `enter` piles `Proper` names up on the stack. -/
theorem foldl_enter_of_proper (parts : List Name) (h : ∀ p ∈ parts, Proper p) :
    ∀ stack : List Name, parts.foldl enter stack = parts.reverse ++ stack := by
  induction parts with
  | nil => simp
  | cons part rest ih =>
    intro stack
    rw [List.foldl_cons, enter_of_proper stack (h part (by simp)),
      ih fun p hp => h p (List.mem_cons_of_mem _ hp)]
    simp

/-! ## Canonical forms

What is rendered from proper names is read back as those names, whatever the base. All that follows
about canonical forms is a consequence of this. -/

theorem isAbsolute_render (names : List Name) : isAbsolute (render names) = true := by
  simp [isAbsolute, render]

/-- `names` reads back the `Proper` names that `render` was given, from every base. -/
theorem names_render (base : String) (ns : List Name) (h : ∀ n ∈ ns, Proper n) :
    names base (render ns) = ns := by
  rw [names, parts, if_pos (isAbsolute_render ns), render, String.toList_ofList, split,
    if_pos rfl, List.foldl_cons]
  -- the empty component in front of the first separator does nothing
  rw [show enter [] [] = [] from rfl]
  cases ns with
  | nil => rfl
  | cons name rest =>
    rw [split_join _ (by simp) fun n hn => (h n hn).no_separator,
      foldl_enter_of_proper _ h]
    simp

/-- `render` is injective on `Proper` names. -/
theorem render_inj {ns ms : List Name} (hns : ∀ n ∈ ns, Proper n) (hms : ∀ m ∈ ms, Proper m)
    (h : render ns = render ms) : ns = ms := by
  rw [← names_render root ns hns, h, names_render root ms hms]

theorem render_nil : render [] = root := by decide

/-- `normalize` is idempotent, and the second base does not matter. -/
theorem normalize_normalize (base base' path : String) :
    normalize base' (normalize base path) = normalize base path := by
  rw [normalize, normalize, names_render base' _ (proper_of_mem_names base path)]

/-- What `normalize` returns is absolute, whatever the path and the base. -/
theorem isAbsolute_normalize (base path : String) : isAbsolute (normalize base path) = true :=
  isAbsolute_render _

/-- A fixed point of resolution, whatever the base. -/
def Canonical (path : String) : Prop :=
  ∀ base, normalize base path = path

/-- `Canonical` is what `Path.normalize` produces. -/
theorem canonical_normalize (base path : String) : Canonical (normalize base path) :=
  fun base' => normalize_normalize base base' path

theorem canonical_root : Canonical root := by
  intro base
  rw [normalize, ← render_nil, names_render base [] (by simp)]

theorem Canonical.isAbsolute {path : String} (h : Canonical path) :
    Path.isAbsolute path = true := by
  rw [← h root]
  exact isAbsolute_normalize root path

/-! ## How canonical paths are spelled

`Canonical` says what resolving does with a path, `Plain` what the path looks like. A path that is
spelled plainly can be recognised without resolving anything. -/

/-- The root, or a separator before each of some components none of which is empty, `.` or `..`; so
no separator stands at the end. -/
def Plain (path : String) : Prop :=
  path = root ∨ ∃ rest, path.toList = '/' :: rest ∧
    ∀ part ∈ split rest, part ≠ [] ∧ part ≠ ['.'] ∧ part ≠ ['.', '.']

/-- `join` puts together what `split` has taken apart. -/
theorem join_split (text : List Char) : join (split text) = text := by
  induction text with
  | nil => rfl
  | cons c rest ih =>
    rw [split]
    cases hs : split rest with
    | nil => exact absurd hs (split_ne_nil rest)
    | cons name names =>
      rw [hs] at ih
      split
      · next hc =>
        rw [join, ih, hc, List.nil_append]
        simp
      · -- with a single component there is no separator to put back
        cases names with
        | nil => exact congrArg (c :: ·) ih
        | cons next names => exact congrArg (c :: ·) ih

/-- A path that starts with a separator is rendered from what `split` makes of the rest. -/
theorem render_split {path : String} {rest : List Char} (h : path.toList = '/' :: rest) :
    render (split rest) = path := by
  rw [render, join_split, ← h, String.ofList_toList]

/-- `render` spells `Proper` names plainly. -/
theorem plain_render (ns : List Name) (h : ∀ n ∈ ns, Proper n) : Plain (render ns) := by
  by_cases hne : ns = []
  · rw [hne]
    exact .inl (by decide)
  · refine .inr ⟨join ns, String.toList_ofList, fun part hpart => ?_⟩
    rw [split_join ns hne fun n hn => (h n hn).no_separator] at hpart
    have hproper := h part hpart
    exact ⟨hproper.ne_nil, hproper.ne_dot, hproper.ne_dotdot⟩

/-- The fixed points of `normalize` are the paths that are spelled `Plain`. -/
theorem canonical_iff_plain {path : String} : Canonical path ↔ Plain path := by
  constructor
  · intro h
    rw [← h root]
    exact plain_render _ (proper_of_mem_names root path)
  · rintro (rfl | ⟨rest, hrest, hparts⟩)
    · exact canonical_root
    · intro base
      have hproper : ∀ n ∈ split rest, Proper n := by
        intro n hn
        obtain ⟨hnil, hdot, hdotdot⟩ := hparts n hn
        exact ⟨hnil, hdot, hdotdot, no_separator_of_mem_split rest n hn⟩
      rw [← render_split hrest, normalize, names_render base _ hproper]

end Path

end WasiHost
