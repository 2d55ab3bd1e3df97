import WasiHost.FileSystem.HostTree
import WasiHost.Proofs.FileSystem.Cancellation

/-!
# Host paths lead down

The canonical form of a guest path has one separator in front, and behind it a name, which does not
begin with a separator. Without the separator in front it is therefore a relative path, so joining
it to the served directory puts its names behind those of the directory and takes none away.

* **`HostPath.pieces`** — what the host walks along.
* **`HostPath.pieces_join`** — joining a relative path puts its pieces behind those of the base.
* **`HostPath.foldl_join`** — names may be joined one by one.
* **`HostPath.LeadsDown`**, **`hostPath_leads_down`** — what a host path looks like.
-/

namespace WasiHost

namespace HostPath

open WasiHost.Path (Name Proper isAbsolute)

/-! ## Joining

`HostPath.join` gives its second path back if that is absolute; that is what would lead out of the
served directory. For a relative path it is a concatenation, whose pieces are those of both. -/

/-- The components of a host path that say something: between two separators in a row there is
nothing. -/
def pieces (path : String) : List Name :=
  (Path.split path.toList).filter fun part => part ≠ []

variable {base path : String} {ns : List Name}

/-- A relative path is written behind the base, after what `HostPath.separator` says. -/
theorem join_of_relative (hpath : isAbsolute path = false) (base : String) :
    join base path = base ++ separator base ++ path := by
  rw [join, hpath]
  rfl

/-- `join` with a relative path does not change whether the base is absolute. -/
theorem isAbsolute_join (hpath : isAbsolute path = false) (base : String) :
    isAbsolute (join base path) = isAbsolute base := by
  rw [join_of_relative hpath]
  by_cases hbase : base = ""
  · subst hbase
    have hempty : "" ++ separator "" ++ path = path := by
      simp [separator]
    rw [hempty, hpath]
    rfl
  · rw [String.append_assoc, Path.isAbsolute_append hbase]

theorem prefix_join (hpath : isAbsolute path = false) (base : String) :
    base.toList <+: (join base path).toList := by
  rw [join_of_relative hpath, String.append_assoc, String.toList_append]
  exact List.prefix_append _ _

/-- What is joined stands behind what was there: `HostPath.pieces` takes `HostPath.join` to a list
append. -/
theorem pieces_join (hpath : isAbsolute path = false) (base : String) :
    pieces (join base path) = pieces base ++ pieces path := by
  rw [join_of_relative hpath, separator]
  -- the base is empty, ends with a separator, or needs one
  by_cases hbase : base = ""
  · subst hbase
    simp [pieces, Path.split]
  · by_cases hlast : base.toList.getLast? = some '/'
    · -- the separator at the end of the base has nothing behind it yet
      obtain ⟨front, hfront⟩ := List.getLast?_eq_some_iff.mp hlast
      have hjoined : (base ++ "" ++ path).toList = front ++ '/' :: path.toList := by
        simp [String.toList_append, hfront]
      rw [if_pos (.inr hlast), pieces, pieces, pieces, hjoined, hfront, Path.split_append,
        Path.split_append]
      simp [Path.split]
    · have hjoined : (base ++ "/" ++ path).toList = base.toList ++ '/' :: path.toList := by
        simp [String.toList_append]
      rw [if_neg (by simp [hbase, hlast]), pieces, pieces, pieces, hjoined, Path.split_append,
        List.filter_append]

/-! ## Names

Names that are `Path.Proper` begin with no separator and have none inside, so whatever is made of
them is relative. It is here that resolving the guest path first pays. -/

/-- What `Path.join` makes of proper names does not begin with a separator: the first name is not
empty. -/
theorem head?_join_ne (h : ∀ n ∈ ns, Proper n) : (Path.join ns).head? ≠ some '/' := by
  cases ns with
  | nil => simp [Path.join]
  | cons name rest =>
    have hname := h name (by simp)
    obtain ⟨c, more, rfl⟩ := List.exists_cons_of_ne_nil hname.ne_nil
    have hc : c ≠ '/' := fun heq => hname.no_separator (by simp [heq])
    cases rest with
    | nil => simpa [Path.join] using hc
    | cons next rest => simpa [Path.join] using hc

/-- So it is a relative path, and `join` appends it. -/
theorem isAbsolute_ofList_join (h : ∀ n ∈ ns, Proper n) :
    isAbsolute (String.ofList (Path.join ns)) = false := by
  simpa [isAbsolute] using head?_join_ne h

/-- Its `pieces` are just these names: none is empty or a single dot. -/
theorem pieces_ofList_join (h : ∀ n ∈ ns, Proper n) :
    pieces (String.ofList (Path.join ns)) = ns := by
  by_cases hnil : ns = []
  · subst hnil
    decide
  · rw [pieces, String.toList_ofList, Path.split_join ns hnil fun n hn => (h n hn).no_separator]
    exact List.filter_eq_self.mpr fun n hn => by simpa using (h n hn).ne_nil

/-- `relative` of a canonical path is what `Path.join` makes of its names. -/
theorem relative_render (h : ∀ n ∈ ns, Proper n) :
    relative (Path.render ns) = String.ofList (Path.join ns) := by
  rw [relative, Path.render, String.toList_ofList, List.dropWhile_cons_of_pos (by simp)]
  cases htext : Path.join ns with
  | nil => rfl
  | cons c rest =>
    have hc : c ≠ '/' := by simpa [htext] using head?_join_ne h
    rw [List.dropWhile_cons_of_neg (by simpa using hc)]

theorem separator_append {name : Name} (h : Proper name) (front : String) :
    separator (front ++ String.ofList name) = "/" := by
  have hlast : (front ++ String.ofList name).toList.getLast? = name.getLast? := by
    rw [String.toList_append, String.toList_ofList, List.getLast?_append]
    simp [List.getLast?_eq_some_getLast h.ne_nil]
  have hslash : name.getLast? ≠ some '/' := fun heq =>
    h.no_separator (List.mem_of_getLast? heq)
  have hempty : front ++ String.ofList name ≠ "" := by
    intro heq
    rw [heq] at hlast
    exact h.ne_nil (List.getLast?_eq_none_iff.mp hlast.symm)
  rw [separator, hlast, if_neg (by simp [hempty, hslash])]

/-- `join` may be done name by name. By induction on `rest`, for every base. -/
theorem foldl_join (base : String) (name : Name) (rest : List Name)
    (h : ∀ n ∈ name :: rest, Proper n) :
    (name :: rest).foldl (fun base n => join base (String.ofList n)) base =
      join base (String.ofList (Path.join (name :: rest))) := by
  -- on the names behind the first; the base of the rest is the base with one name joined
  induction rest generalizing base name with
  | nil => rfl
  | cons next rest ih =>
    have hname := h name (by simp)
    have hrest : ∀ n ∈ next :: rest, Proper n := fun n hn => h n (List.mem_cons_of_mem _ hn)
    have hone : isAbsolute (String.ofList name) = false := by
      have hsingle : ∀ n ∈ [name], Proper n := by simpa using hname
      show isAbsolute (String.ofList (Path.join [name])) = false
      exact isAbsolute_ofList_join hsingle
    have htext : String.ofList (Path.join (name :: next :: rest)) =
        String.ofList name ++ "/" ++ String.ofList (Path.join (next :: rest)) := by
      rw [← String.toList_inj]
      simp [String.toList_append, Path.join]
    calc (name :: next :: rest).foldl (fun base n => join base (String.ofList n)) base
      _ = join (join base (String.ofList name)) (String.ofList (Path.join (next :: rest))) :=
          ih _ next hrest
      _ = base ++ separator base ++ String.ofList name ++ "/" ++
            String.ofList (Path.join (next :: rest)) := by
          rw [join_of_relative (isAbsolute_ofList_join hrest), join_of_relative hone,
            separator_append hname]
      _ = join base (String.ofList (Path.join (name :: next :: rest))) := by
          rw [join_of_relative (isAbsolute_ofList_join h), htext]
          simp only [String.append_assoc]

/-! ## The path of the host

The two halves put together, for every served directory and every guest path. -/

/-- A host path leads from a directory down through names. -/
structure LeadsDown (served : String) (ns : List Name) (host : String) : Prop where
  names : ∀ n ∈ ns, n ≠ [] ∧ n ≠ ['.'] ∧ n ≠ ['.', '.'] ∧ '/' ∉ n
  /-- The directory is spelled in front as it is, -/
  begins : served.toList <+: host.toList
  absolute_eq : isAbsolute host = isAbsolute served
  /-- and the names come behind all that it consists of. -/
  pieces_eq : pieces host = pieces served ++ ns
  joined : ns ≠ [] → host = ns.foldl (fun base n => join base (String.ofList n)) served
  empty : ns = [] → host = join served ""

/-- `join` of proper names `LeadsDown` from the directory served. -/
theorem leadsDown_join (served : String) (h : ∀ n ∈ ns, Proper n) :
    LeadsDown served ns (join served (String.ofList (Path.join ns))) := by
  have hrelative := isAbsolute_ofList_join h
  refine ⟨?names, prefix_join hrelative served, isAbsolute_join hrelative served, ?pieces, ?joined,
    ?empty⟩
  case names =>
    intro n hn
    have hproper := h n hn
    exact ⟨hproper.ne_nil, hproper.ne_dot, hproper.ne_dotdot, hproper.no_separator⟩
  case pieces => rw [pieces_join hrelative, pieces_ofList_join h]
  case joined =>
    intro hne
    cases ns with
    -- joining the empty path adds a separator, so the root is apart
    | nil => exact absurd rfl hne
    | cons name rest => exact (foldl_join served name rest h).symm
  case empty =>
    rintro rfl
    rfl

end HostPath

/-- `hostPath` is `join` of the directory served with what `Path.join` makes of the names of the
guest path. -/
theorem hostPath_eq (served path : String) :
    hostPath served path =
      HostPath.join served (String.ofList (Path.join (Path.names Path.root path))) := by
  rw [hostPath, Path.normalize, HostPath.relative_render (Path.proper_of_mem_names Path.root path)]

/-- `hostPath` is the directory served with the names of the canonical form behind it. What is
joined is never absolute, so `join` never replaces the directory, and how the guest spells the path
does not matter. -/
theorem hostPath_leads_down (served path : String) :
    HostPath.LeadsDown served (Path.below (Path.normalize Path.root path)) (hostPath served path) ∧
      Path.isAbsolute (HostPath.relative (Path.normalize Path.root path)) = false ∧
        hostPath served (Path.normalize Path.root path) = hostPath served path := by
  have hproper := Path.proper_of_mem_names Path.root path
  refine ⟨?_, ?_, ?_⟩
  · rw [Path.normalize, Path.below_render hproper, hostPath_eq]
    exact HostPath.leadsDown_join served hproper
  · rw [Path.normalize, HostPath.relative_render hproper]
    exact HostPath.isAbsolute_ofList_join hproper
  · rw [hostPath, Path.normalize_normalize, hostPath]

end WasiHost
