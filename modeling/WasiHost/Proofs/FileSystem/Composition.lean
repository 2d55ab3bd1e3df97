import WasiHost.Proofs.FileSystem.CanonicalPath

/-!
# Resolving a path in steps

A path that is resolved from where another one leads is resolved at once if the two are joined by a
separator: writing down the names on the stack and reading them again puts them back as they were,
so the second half of the components finds the stack that the first half has left.

* **`split_append`** — the components of two paths joined by a separator are those of both.
* **`foldl_enter_normalize`** — reading a canonical form leaves the stack it was written from.
* **`normalize_up`** — the step up from a path.
* **`normalize_normalize_append`** — two steps are one.
* **`normalize_normalize_root`** — a base may be made canonical first.
-/

namespace WasiHost

namespace Path

/-! ## Components

What is split can be joined in two ways, as texts with a separator in between or as lists of
components. The two agree: `split_append`. -/

/-- A separator ends one component and begins the next, so `split` goes on behind it afresh. -/
theorem split_append (text rest : List Char) :
    split (text ++ '/' :: rest) = split text ++ split rest := by
  induction text with
  | nil => simp [split]
  | cons c text ih =>
    rw [List.cons_append, split, split]
    by_cases hc : c = '/'
    · rw [if_pos hc, if_pos hc, ih, List.cons_append]
    · rw [if_neg hc, if_neg hc, ih]
      cases hs : split text with
      | nil => exact absurd hs (split_ne_nil text)
      | cons name names => rfl

/-- Whether a path is `isAbsolute` is up to its first character. -/
theorem isAbsolute_append {p : String} (hp : p ≠ "") (q : String) :
    isAbsolute (p ++ q) = isAbsolute p := by
  rw [isAbsolute, isAbsolute, String.toList_append]
  cases htext : p.toList with
  | nil => exact absurd (String.toList_eq_nil_iff.mp htext) hp
  | cons c text => rfl

/-- The `parts` of a relative path stand behind those of its base. -/
theorem parts_of_relative {q : String} (hq : isAbsolute q = false) (base : String) :
    parts base q = split base.toList ++ split q.toList := by
  rw [parts, hq]
  rfl

/-- The `parts` of `p ++ "/" ++ q` are those of `p` and then those of `q`, unless `p` is empty: then
the separator makes the path absolute. -/
theorem parts_append {p : String} (hp : p ≠ "") (base q : String) :
    parts base (p ++ "/" ++ q) = parts base p ++ split q.toList := by
  have hjoined : (p ++ "/" ++ q).toList = p.toList ++ '/' :: q.toList := by
    simp [String.toList_append]
  have habsolute : isAbsolute (p ++ "/" ++ q) = isAbsolute p := by
    rw [String.append_assoc, isAbsolute_append hp]
  rw [parts, parts, habsolute, hjoined, split_append]
  split
  · rfl
  · rw [List.append_assoc]

/-! ## The stack that is found again

Resolving writes the stack down and reading it again rebuilds it (`foldl_enter_normalize`), so a
path may be resolved in as many steps as one likes. -/

/-- Reading what `render` makes of proper names puts them on the stack. -/
theorem foldl_enter_render {ns : List Name} (h : ∀ n ∈ ns, Proper n) :
    (split (render ns).toList).foldl enter [] = ns.reverse := by
  have hread := names_render root ns h
  rw [names, parts, if_pos (isAbsolute_render ns)] at hread
  exact List.reverse_eq_iff.mp hread

/-- Reading what `normalize` returns leaves the stack that it was rendered from. -/
theorem foldl_enter_normalize (base path : String) :
    (split (normalize base path).toList).foldl enter [] = (parts base path).foldl enter [] := by
  rw [normalize, foldl_enter_render (proper_of_mem_names base path), names, List.reverse_reverse]

/-- From a rendered path `..` leads up to the path without its last name. -/
theorem normalize_up {ns : List Name} (h : ∀ n ∈ ns, Proper n) :
    normalize (render ns) ".." = render ns.dropLast := by
  have hsplit : split "..".toList = [['.', '.']] := by decide
  have henter : enter ns.reverse ['.', '.'] = ns.reverse.tail := rfl
  rw [normalize, names, parts_of_relative (by decide), hsplit, List.foldl_append,
    foldl_enter_render h, List.foldl_cons, List.foldl_nil, henter, List.tail_reverse,
    List.reverse_reverse]

/-- From `normalize base p` on, a relative path goes on with the stack of `parts base p`. -/
theorem names_normalize {q : String} (hq : isAbsolute q = false) (base p : String) :
    names (normalize base p) q = ((parts base p ++ split q.toList).foldl enter []).reverse := by
  rw [names, parts_of_relative hq, List.foldl_append, foldl_enter_normalize, ← List.foldl_append]

/-- Two steps are one: resolving `q` from where `p` leads is resolving both at once, with a
separator in between. -/
theorem normalize_normalize_append {p q : String} (hp : p ≠ "") (hq : isAbsolute q = false)
    (base : String) : normalize (normalize base p) q = normalize base (p ++ "/" ++ q) := by
  rw [normalize, names_normalize hq, ← parts_append hp]
  rfl

/-- The components of `root` are empty, so they leave no trace on the stack. -/
theorem foldl_enter_root (later : List Name) :
    (split root.toList ++ later).foldl enter [] = later.foldl enter [] := by
  have hroot : split root.toList = [[], []] := by decide
  rw [hroot]
  rfl

/-- For an absolute path `normalize` does not look at the base. -/
theorem normalize_of_absolute {path : String} (h : isAbsolute path = true) (base base' : String) :
    normalize base path = normalize base' path := by
  have hparts : parts base path = parts base' path := by
    rw [parts, parts, if_pos h, if_pos h]
  rw [normalize, names, hparts]
  rfl

/-- A base may be made canonical first: `normalize` from it leads to the same place. -/
theorem normalize_normalize_root (base path : String) :
    normalize (normalize root base) path = normalize base path := by
  -- an absolute path does not look at its base
  by_cases hpath : isAbsolute path = true
  · exact normalize_of_absolute hpath _ _
  · have hrelative : isAbsolute path = false := by simpa using hpath
    have hbase : (parts root base).foldl enter [] = (split base.toList).foldl enter [] := by
      rw [parts]
      split
      · rfl
      · exact foldl_enter_root _
    rw [normalize, names_normalize hrelative, List.foldl_append, hbase, ← List.foldl_append,
      ← parts_of_relative hrelative]
    rfl

/-- Below `root` the first of two steps may be empty: what the separator then makes absolute starts
at the root anyway. -/
theorem normalize_normalize_append_root {q : String} (hq : isAbsolute q = false) (p : String) :
    normalize (normalize root p) q = normalize root (p ++ "/" ++ q) := by
  -- an empty first step is a case of its own, since the separator behind it makes the path absolute
  by_cases hp : p = ""
  · subst hp
    have habsolute : isAbsolute ("" ++ "/" ++ q) = true := by
      simp [isAbsolute, String.toList_append]
    have hjoined : ("" ++ "/" ++ q).toList = '/' :: q.toList := by
      simp [String.toList_append]
    have hnames : names (normalize root "") q = names root ("" ++ "/" ++ q) := by
      have hparts : parts root ("" ++ "/" ++ q) = [] :: split q.toList := by
        rw [parts, if_pos habsolute, hjoined]
        rfl
      rw [names_normalize hq, names, hparts]
      rfl
    exact congrArg render hnames
  · exact normalize_normalize_append hp hq root

end Path

end WasiHost
