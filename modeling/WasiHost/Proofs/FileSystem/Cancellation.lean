import WasiHost.Proofs.FileSystem.Composition

/-!
# Which names of a path are left

A `..` takes back the last name before it that has not been taken back yet, so `..` belongs to a
name as a closing bracket belongs to an opening one. What stands between a name and its `..` is
*balanced*: each name in it has its own `..` there, and the other way round. The names of the
resolved path are therefore those that no later `..` belongs to, in the order in which they stand,
and a `..` that belongs to no name has no effect.

A stack shows the same from the other side. Components that are read on a stack put the names that
are left on it, and take off as many of those below as they climb beyond their own start.

* **`Cancelled`**, **`kept`** — the names of a path that are left, said without a stack.
* **`foldl_enter_eq`** — what reading components does to any stack.
* **`Clean`** — how a canonical path is spelled.
* **`normalize_resolves`** — the canonical form of a path consists of the names that are left.
-/

namespace WasiHost

namespace Path

/-! ## Names and what cancels them

No stack appears in the definitions here. `Balanced` is the grammar of matched brackets, and `climb`
counts the closing ones that stay unmatched; the two are tied together by `Balanced.climb_append`
and `exists_up_of_climb_pos`. -/

/-- The component that leads to the directory above. -/
def up : Name := ['.', '.']

/-- A component that leads nowhere. -/
def Idle (part : Name) : Prop :=
  part = [] ∨ part = ['.']

/-- A component that is a name. -/
def IsName (part : Name) : Prop :=
  part ≠ [] ∧ part ≠ ['.'] ∧ part ≠ ['.', '.']

instance (part : Name) : Decidable (Idle part) :=
  inferInstanceAs (Decidable (_ ∨ _))

instance (part : Name) : Decidable (IsName part) :=
  inferInstanceAs (Decidable (_ ∧ _ ∧ _))

/-- Components in which every name has a `..` that cancels it, and every `..` a name. -/
inductive Balanced : List Name → Prop where
  | nil : Balanced []
  | idle {part : Name} {rest : List Name} (hpart : Idle part) (hrest : Balanced rest) :
      Balanced (part :: rest)
  | pair {name : Name} {between rest : List Name} (hname : IsName name)
      (hbetween : Balanced between) (hrest : Balanced rest) :
      Balanced (name :: (between ++ up :: rest))

/-- Among the components after a name there is a `..` that cancels it. -/
def Cancelled (later : List Name) : Prop :=
  ∃ between rest, later = between ++ up :: rest ∧ Balanced between

/-- How far components climb above where they start, at most: the number of `..` in them that have
no name to cancel. -/
def climb : List Name → Nat
  | [] => 0
  | part :: rest =>
    if Idle part then climb rest
    else if part = up then climb rest + 1
    else climb rest - 1

/-- Every component is `Idle`, is `up`, or is a name: the three cases of `Path.enter`. -/
theorem part_cases (part : Name) : Idle part ∨ part = up ∨ IsName part := by
  unfold Idle IsName up
  by_cases hnil : part = [] <;> by_cases hdot : part = ['.'] <;>
    by_cases hup : part = ['.', '.'] <;> simp [hnil, hdot, hup]

theorem not_idle_up : ¬ Idle up := by decide

theorem IsName.not_idle {name : Name} (h : IsName name) : ¬ Idle name :=
  fun hidle => hidle.elim h.1 h.2.1

theorem IsName.ne_up {name : Name} (h : IsName name) : name ≠ up :=
  h.2.2

/-- `climb` passes over a component that is `Idle`. -/
theorem climb_idle {part : Name} (h : Idle part) (rest : List Name) :
    climb (part :: rest) = climb rest := by
  rw [climb, if_pos h]

/-- A `..` climbs one more than the components behind it. -/
theorem climb_up (rest : List Name) : climb (up :: rest) = climb rest + 1 := by
  rw [climb, if_neg not_idle_up, if_pos rfl]

/-- A name takes one off what the rest climbs. Where the rest climbs nothing there is nothing to
take off: subtraction is truncated. -/
theorem climb_name {name : Name} (h : IsName name) (rest : List Name) :
    climb (name :: rest) = climb rest - 1 := by
  rw [climb, if_neg h.not_idle, if_neg h.ne_up]

/-- `Balanced` components make no difference to `climb`. -/
theorem Balanced.climb_append {between : List Name} (h : Balanced between) (later : List Name) :
    climb (between ++ later) = climb later := by
  induction h generalizing later with
  | nil => rfl
  | idle hpart _ ih =>
    rw [List.cons_append, climb_idle hpart]
    exact ih later
  -- the name takes one off what its own `..` climbs, so the pair adds nothing
  | @pair name between rest hname _ _ ihbetween ihrest =>
    calc climb (name :: (between ++ up :: rest) ++ later)
      _ = climb (between ++ (up :: (rest ++ later))) - 1 := by
          rw [List.cons_append, climb_name hname, List.append_assoc, List.cons_append]
      _ = climb (rest ++ later) + 1 - 1 := by rw [ihbetween, climb_up]
      _ = climb later := ihrest later

/-- Components that climb do so by a `..` that only balanced components stand before. -/
theorem exists_up_of_climb_pos (later : List Name) (h : 0 < climb later) :
    ∃ between rest, later = between ++ up :: rest ∧ Balanced between ∧
      climb later = climb rest + 1 := by
  match later with
  | [] => exact absurd h (by decide)
  | part :: rest =>
    -- only a name has to be cancelled before a `..` is left over
    obtain hpart | rfl | hname := part_cases part
    · rw [climb_idle hpart] at h ⊢
      obtain ⟨between, later, rfl, hbetween, hclimb⟩ := exists_up_of_climb_pos rest h
      exact ⟨part :: between, later, rfl, .idle hpart hbetween, hclimb⟩
    · exact ⟨[], rest, rfl, .nil, climb_up rest⟩
    · rw [climb_name hname] at h ⊢
      -- the first `..` that is left over cancels this name, so the second one is looked for
      obtain ⟨inner, more, rfl, hinner, hmore⟩ := exists_up_of_climb_pos rest (by omega)
      obtain ⟨between, later, rfl, hbetween, hclimb⟩ := exists_up_of_climb_pos more (by omega)
      refine ⟨part :: (inner ++ up :: between), later, by simp, .pair hname hinner hbetween, ?_⟩
      omega
termination_by later.length
decreasing_by
  all_goals
    simp_all only [List.length_cons, List.length_append]
    omega

/-- A name is cancelled exactly if the components behind it climb. This makes `Cancelled` decidable,
by running `climb`. -/
theorem cancelled_iff {later : List Name} : Cancelled later ↔ 0 < climb later := by
  constructor
  · rintro ⟨between, rest, rfl, hbetween⟩
    rw [hbetween.climb_append, climb_up]
    exact Nat.succ_pos _
  · intro h
    obtain ⟨between, rest, hlater, hbetween, -⟩ := exists_up_of_climb_pos later h
    exact ⟨between, rest, hlater, hbetween⟩

instance (later : List Name) : Decidable (Cancelled later) :=
  decidable_of_iff _ cancelled_iff.symm

/-- The names that no later `..` cancels, in order. -/
def kept : List Name → List Name
  | [] => []
  | part :: rest => if IsName part ∧ ¬ Cancelled rest then part :: kept rest else kept rest

example : kept [['a'], ['b'], up, ['.'], ['c'], up, up, up, ['d']] = [['d']] := by decide

/-! ## The stack

How the components act on any stack at all. The statement speaks of any stack since the induction
reads the components from the left, and what is below the stack's top must be told from what the
components put there. -/

theorem enter_idle {part : Name} (h : Idle part) (stack : List Name) : enter stack part = stack :=
  if_pos h

/-- On the stack a `..` takes the top name off. -/
theorem enter_up (stack : List Name) : enter stack up = stack.tail :=
  (if_neg not_idle_up).trans (if_pos rfl)

theorem enter_name {name : Name} (h : IsName name) (stack : List Name) :
    enter stack name = name :: stack :=
  (if_neg h.not_idle).trans (if_neg h.ne_up)

/-- Reading `parts` on a stack drops `climb parts` names of it, and puts the names of `kept parts`
on what is left. By induction on `parts`, for every stack. -/
theorem foldl_enter_eq (parts stack : List Name) :
    parts.foldl enter stack = (kept parts).reverse ++ stack.drop (climb parts) := by
  -- on the components from the left; the stack below them is arbitrary
  induction parts generalizing stack with
  | nil => rfl
  | cons part rest ih =>
    rw [List.foldl_cons, ih]
    obtain hpart | rfl | hname := part_cases part
    · have hkept : kept (part :: rest) = kept rest := if_neg fun h => h.1.not_idle hpart
      rw [hkept, climb_idle hpart, enter_idle hpart]
    · have hkept : kept (up :: rest) = kept rest := if_neg fun h => h.1.ne_up rfl
      rw [hkept, climb_up, enter_up, List.drop_tail]
    · rw [climb_name hname, enter_name hname]
      by_cases hcancelled : Cancelled rest
      · -- one of the names that the rest takes off is this one
        have hkept : kept (part :: rest) = kept rest := if_neg fun h => h.2 hcancelled
        have hclimb : climb rest = climb rest - 1 + 1 := by
          have := cancelled_iff.mp hcancelled
          omega
        rw [hkept, hclimb, List.drop_succ_cons, Nat.add_sub_cancel]
      · have hkept : kept (part :: rest) = part :: kept rest := if_pos ⟨hname, hcancelled⟩
        have hclimb : climb rest = 0 := by
          have := mt cancelled_iff.mpr hcancelled
          omega
        rw [hkept, hclimb, List.reverse_cons]
        simp

/-- Read from the root, on the empty stack, `parts` leave the names of `kept parts`. -/
theorem reverse_foldl_enter (parts : List Name) : (parts.foldl enter []).reverse = kept parts := by
  rw [foldl_enter_eq]
  simp

/-- The names of a path that is resolved are those that are `kept` of its components. -/
theorem names_eq_kept (base path : String) : names base path = kept (parts base path) :=
  reverse_foldl_enter _

/-- A `..` that finds no name has no effect. -/
theorem kept_append_up {before : List Name} (h : kept before = []) (after : List Name) :
    kept (before ++ up :: after) = kept (before ++ after) := by
  have hbefore : before.foldl enter [] = [] := by
    simp [foldl_enter_eq, h]
  rw [← reverse_foldl_enter, ← reverse_foldl_enter, List.foldl_append, List.foldl_append, hbefore,
    List.foldl_cons, enter_up]
  rfl

/-! ## How canonical paths are spelled

A path from the root has its components behind its first separator. A separator at the end would
bring an empty component, so only the root may end with one. -/

/-- The components of an absolute path. The root has none. -/
def below (path : String) : List Name :=
  if path = root then [] else split path.toList.tail

/-- A path that starts with a separator, ends with one only if it is the root, and has none but
names as components. -/
structure Clean (path : String) : Prop where
  head : path.toList.head? = some '/'
  last : path.toList.getLast? = some '/' → path = root
  names : ∀ part ∈ below path, IsName part

/-- The root is `Clean`. It is the one clean path that ends with a separator. -/
theorem clean_root : Clean root where
  head := by decide
  last := fun _ => rfl
  names := by
    rw [below, if_pos rfl]
    exact nofun

/-- `Clean`, which speaks of the ends of the path and of its components, is `Plain`, which takes the
path apart from the front. -/
theorem clean_iff_plain {path : String} : Clean path ↔ Plain path := by
  constructor
  · -- `below` has the components behind the first separator, those that `Plain` asks about
    intro h
    by_cases hroot : path = root
    · exact .inl hroot
    · obtain ⟨rest, hrest⟩ := List.head?_eq_some_iff.mp h.head
      have hnames := h.names
      rw [below, if_neg hroot, hrest, List.tail_cons] at hnames
      exact .inr ⟨rest, hrest, hnames⟩
  · rintro (rfl | ⟨rest, hrest, hparts⟩)
    · exact clean_root
    · refine ⟨by rw [hrest]; rfl, fun hlast => ?_, ?_⟩
      · -- behind a separator at the end there would be an empty component
        rw [hrest] at hlast
        obtain ⟨front, hfront⟩ := List.getLast?_eq_some_iff.mp hlast
        have hempty : [] ∈ split rest := by
          cases front with
          | nil =>
            obtain rfl : rest = [] := (List.cons.inj hfront).2
            exact List.mem_singleton.mpr rfl
          | cons c front =>
            obtain rfl : rest = front ++ ['/'] := (List.cons.inj hfront).2
            rw [split_append]
            exact List.mem_append_right _ (List.mem_singleton.mpr rfl)
        exact absurd rfl (hparts [] hempty).1
      · rw [below]
        split
        · exact nofun
        · rw [hrest, List.tail_cons]
          exact hparts

/-- The components `below` the path that proper names make up are these names. -/
theorem below_render {ns : List Name} (h : ∀ n ∈ ns, Proper n) : below (render ns) = ns := by
  by_cases hne : ns = []
  · subst hne
    exact if_pos (by decide)
  · have hsplit : split (join ns) = ns := split_join ns hne fun n hn => (h n hn).no_separator
    have hroot : render ns ≠ root := by
      intro hrender
      have htext : '/' :: join ns = ['/'] := by
        have := congrArg String.toList hrender
        rwa [render, String.toList_ofList] at this
      rw [(List.cons.inj htext).2] at hsplit
      -- the root would be the path of an empty name
      have hempty : [] ∈ ns := by
        rw [← hsplit]
        exact List.mem_singleton.mpr rfl
      exact (h [] hempty).ne_nil rfl
    rw [below, if_neg hroot, render, String.toList_ofList, List.tail_cons, hsplit]

/-! ## What resolving does

Both views put together: the stack that `Path.normalize` works with leaves the names that are
`kept`. -/

/-- The path is what resolving the components from the root leads to. -/
structure ResolvesTo (components : List Name) (path : String) : Prop where
  clean : Clean path
  below_eq : below path = kept components
  up_ignored : ∀ before after, components = before ++ up :: after → kept before = [] →
    below path = kept (before ++ after)

/-- `normalize` leads to where resolving the components leads: `ResolvesTo` has a name stay exactly
if nothing behind it cancels it. -/
theorem resolvesTo_normalize (base path : String) :
    ResolvesTo (parts base path) (normalize base path) := by
  have hproper := proper_of_mem_names base path
  have hbelow : below (normalize base path) = kept (parts base path) :=
    (below_render hproper).trans (names_eq_kept base path)
  refine ⟨clean_iff_plain.mpr (plain_render _ hproper), hbelow, fun before after hparts hkept => ?_⟩
  rw [hbelow, hparts, kept_append_up hkept]

/-- The canonical form of a path consists of those names among its components, and among those of
the base if the path is relative, that no later `..` cancels; and the canonical forms are the clean
paths, which are the fixed points. -/
theorem normalize_resolves (base path : String) :
    ResolvesTo
        (if path.toList.head? = some '/' then split path.toList
          else split base.toList ++ split path.toList)
        (normalize base path) ∧
      (∀ base', normalize base' (normalize base path) = normalize base path) ∧
      ∀ s, (Clean s ↔ ∀ b, normalize b s = s) ∧
        ((∃ b p, normalize b p = s) ↔ ∀ b, normalize b s = s) := by
  have hparts : parts base path = if path.toList.head? = some '/' then split path.toList
      else split base.toList ++ split path.toList := by
    simp [parts, isAbsolute]
  refine ⟨hparts ▸ resolvesTo_normalize base path, fun base' => normalize_normalize base base' path,
    fun s => ⟨clean_iff_plain.trans canonical_iff_plain.symm, ?_, fun h => ⟨root, s, h root⟩⟩⟩
  rintro ⟨b, p, rfl⟩
  exact canonical_normalize b p

end Path

end WasiHost
