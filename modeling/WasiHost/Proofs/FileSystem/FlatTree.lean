import WasiHost.FileSystem.FlatTree
import WasiHost.Proofs.FileSystem.CanonicalPath

/-!
# What an insertion does to a tree

A tree is looked at one path at a time. Putting something at a path changes what is there and
nothing else, making a directory does so only where nothing is, and an inserted file or directory
comes with a directory at each path on the way that is not taken. What is at such a path stays,
whatever it is.

* **`FlatTree.nodeAt?`** — what is at a path.
* **`FlatTree.nodeAt?_insertFile`**, **`FlatTree.nodeAt?_insertDirectory`** — what an insertion
  leaves.
* **`FlatTree.mem_ancestors_iff`** — the paths on the way.
* **`FlatTree.SameInodes`** — whatever is put somewhere, inodes stay.
* **`FlatTree.KeptByPut`** — what every put keeps is kept by insertions.
-/

namespace WasiHost

namespace FlatTree

/-- What is at a path, spelled as it is. -/
def nodeAt? (tree : FlatTree) (path : String) : Option Node :=
  (tree.find? path).map Entry.node

variable {tree : FlatTree} {path p : String} {node : Node}

/-! ## One path

A tree is a list of entries, of which a path sees the first that has it. `put` removes the entry
that was there, so `find?` is a function of paths that `put` changes at one point. -/

/-- The entry that a path has once something is put there. -/
def putEntry (tree : FlatTree) (path : String) (node : Node) : Entry :=
  { inode := ((tree.find? path).map Entry.inode).getD tree.nextInode, node := node }

theorem find?_others (tree : FlatTree) (h : p ≠ path) :
    (tree.entries.filter fun entry => entry.1 ≠ path).find? (fun entry => entry.1 = p) =
      tree.entries.find? fun entry => entry.1 = p := by
  -- whatever stands at `p` does not stand at `path`, so the filter keeps it
  have hsame : (fun entry : String × Entry =>
      decide (decide (entry.1 ≠ path) ∧ decide (entry.1 = p))) =
        fun entry => decide (entry.1 = p) := by
    funext entry
    by_cases hentry : entry.1 = p
    · simp [hentry, h]
    · simp [hentry]
  rw [List.find?_filter, hsame]

/-- After `FlatTree.put` the path has its new entry, and any other path the entry that it had. -/
theorem find?_put (tree : FlatTree) (path : String) (node : Node) (p : String) :
    (tree.put path node).find? p =
      if p = path then some (tree.putEntry path node) else tree.find? p := by
  by_cases hp : p = path
  · subst hp
    rw [if_pos rfl, put, putEntry]
    -- an entry is made anew, or takes over the inode of the one that is removed
    cases htaken : tree.find? p with
    | none => simp [find?]
    | some entry => simp [find?]
  · have hfirst : ¬ path = p := fun heq => hp heq.symm
    rw [if_neg hp, put]
    cases tree.find? path with
    | none =>
      rw [find?, List.find?_cons_of_neg (by simpa using hfirst), find?_others tree hp]
      rfl
    | some entry =>
      rw [find?, List.find?_cons_of_neg (by simpa using hfirst), find?_others tree hp]
      rfl

/-- The same without the inodes: `find?_put`. -/
theorem nodeAt?_put (tree : FlatTree) (path : String) (node : Node) (p : String) :
    (tree.put path node).nodeAt? p = if p = path then some node else tree.nodeAt? p := by
  rw [nodeAt?, find?_put]
  split
  · rfl
  · rfl

/-- `putDirectory` makes a directory where `nodeAt?` finds nothing, and only there. -/
theorem nodeAt?_putDirectory (tree : FlatTree) (path p : String) :
    (tree.putDirectory path).nodeAt? p =
      (tree.nodeAt? p).or (if p = path then some .directory else none) := by
  unfold putDirectory
  -- nothing is there, or what is there stays
  cases htaken : tree.find? path with
  | none =>
    rw [Option.isSome_none, if_neg (by decide), nodeAt?_put]
    by_cases hp : p = path
    · subst hp
      simp [nodeAt?, htaken]
    · simp [hp]
  | some entry =>
    rw [Option.isSome_some, if_pos rfl]
    by_cases hp : p = path
    · subst hp
      simp [nodeAt?, htaken]
    · simp [hp]

/-- `putDirectory` at several paths, one after the other. By induction on `paths`, for every
tree. -/
theorem nodeAt?_foldl_putDirectory (tree : FlatTree) (paths : List String) (p : String) :
    (paths.foldl putDirectory tree).nodeAt? p =
      (tree.nodeAt? p).or (if p ∈ paths then some .directory else none) := by
  induction paths generalizing tree with
  | nil => simp
  | cons path rest ih =>
    rw [List.foldl_cons, ih, nodeAt?_putDirectory, Option.or_assoc]
    by_cases hp : p = path
    · simp [hp]
    · simp [hp]

/-! ## The paths on the way

`FlatTree.ancestors` cuts a list of names at each depth. Said with prefixes the depths disappear,
and with them the arithmetic. -/

/-- `ancestors` are rendered from the proper prefixes of the names, but for the empty one: the root
is not among them. -/
theorem mem_ancestors_iff {ns : List Path.Name} :
    p ∈ ancestors ns ↔
      ∃ before, before ≠ [] ∧ before <+: ns ∧ before ≠ ns ∧ p = Path.render before := by
  -- the depths between the root and the path itself
  have hdepth (depth : Nat) :
      depth ∈ (List.range ns.length).tail ↔ 0 < depth ∧ depth < ns.length := by
    rw [List.tail_range]
    simp
    omega
  simp only [ancestors, List.mem_map, hdepth]
  constructor
  · rintro ⟨depth, ⟨hpos, hlt⟩, rfl⟩
    -- a prefix of that depth is neither empty nor all of the names
    have hlength : (ns.take depth).length = depth := List.length_take_of_le (Nat.le_of_lt hlt)
    refine ⟨ns.take depth, fun hnil => ?_, List.take_prefix depth ns, fun hall => ?_, rfl⟩
    · rw [hnil] at hlength
      exact absurd hlength (Nat.ne_of_lt hpos)
    · rw [hall] at hlength
      omega
  · rintro ⟨before, hne, hpre, hproper, rfl⟩
    refine ⟨before.length, ⟨List.length_pos_iff.mpr hne, ?_⟩, ?_⟩
    · exact Nat.lt_of_le_of_ne hpre.length_le fun heq => hproper (hpre.eq_of_length heq)
    · rw [← List.prefix_iff_eq_take.mp hpre]

/-! ## Insertions

Each insertion is told by what is at every path afterwards, in terms of what was there before. Later
modules look at trees through these two equations. -/

/-- `insertFile` leaves the file at its path, and directories at the `ancestors` where nothing
is. -/
theorem nodeAt?_insertFile (tree : FlatTree) (path : String) (content : Bytes) (p : String) :
    (tree.insertFile path content).nodeAt? p =
      if p = Path.normalize Path.root path then some (.file content)
      else (tree.nodeAt? p).or
        (if p ∈ ancestors (Path.names Path.root path) then some .directory else none) := by
  rw [insertFile, nodeAt?_put, makeAncestors, nodeAt?_foldl_putDirectory]
  rfl

/-- `insertDirectory` leaves directories at its path and at the `ancestors`. At its own path, too,
it gives way to whatever is there. -/
theorem nodeAt?_insertDirectory (tree : FlatTree) (path p : String) :
    (tree.insertDirectory path).nodeAt? p =
      (tree.nodeAt? p).or
        (if p ∈ ancestors (Path.names Path.root path) ∨ p = Path.normalize Path.root path then
          some .directory
        else none) := by
  rw [insertDirectory, nodeAt?_putDirectory, makeAncestors, nodeAt?_foldl_putDirectory,
    Option.or_assoc]
  by_cases hp : p ∈ ancestors (Path.names Path.root path)
  · simp [hp]
  · simp [hp, Path.normalize]

/-! ## Inodes

The root starts with its inode and every new entry takes the next one. What matters here is only
that an entry, once made, keeps the inode it has. -/

/-- Whatever is in one tree is in the other one, with the same inode. -/
def SameInodes (before after : FlatTree) : Prop :=
  ∀ p entry, before.find? p = some entry →
    ∃ entry', after.find? p = some entry' ∧ entry'.inode = entry.inode

namespace SameInodes

theorem refl (tree : FlatTree) : SameInodes tree tree :=
  fun _ entry hentry => ⟨entry, hentry, rfl⟩

theorem trans {a b c : FlatTree} (hab : SameInodes a b) (hbc : SameInodes b c) :
    SameInodes a c := by
  intro p entry hentry
  obtain ⟨entry', hentry', hinode⟩ := hab p entry hentry
  obtain ⟨entry'', hentry'', hinode'⟩ := hbc p entry' hentry'
  exact ⟨entry'', hentry'', hinode'.trans hinode⟩

end SameInodes

/-- What is put in place of something takes its inode over, as `putEntry` has it. -/
theorem sameInodes_put (tree : FlatTree) (path : String) (node : Node) :
    SameInodes tree (tree.put path node) := by
  intro p entry hentry
  rw [find?_put]
  by_cases hp : p = path
  · subst hp
    refine ⟨_, if_pos rfl, ?_⟩
    simp [putEntry, hentry]
  · rw [if_neg hp]
    exact ⟨entry, hentry, rfl⟩

/-! ## What every put keeps

An insertion is a number of puts, so what every put keeps is kept by an insertion. -/

/-- Whatever is put anywhere, the property stays. -/
def KeptByPut (holds : FlatTree → Prop) : Prop :=
  ∀ tree path node, holds tree → holds (tree.put path node)

namespace KeptByPut

variable {holds : FlatTree → Prop}

theorem putDirectory (hput : KeptByPut holds) (h : holds tree) (path : String) :
    holds (tree.putDirectory path) := by
  unfold FlatTree.putDirectory
  split
  · exact h
  · exact hput tree path .directory h

/-- `makeAncestors` is a sequence of `putDirectory`. -/
theorem makeAncestors (hput : KeptByPut holds) (h : holds tree) (ns : List Path.Name) :
    holds (tree.makeAncestors ns) := by
  unfold FlatTree.makeAncestors
  induction ancestors ns generalizing tree with
  | nil => exact h
  | cons path rest ih => exact ih (hput.putDirectory h path)

/-- `insertFile` is `makeAncestors` and then a `put`. -/
theorem insertFile (hput : KeptByPut holds) (h : holds tree) (path : String) (content : Bytes) :
    holds (tree.insertFile path content) :=
  hput _ _ _ (hput.makeAncestors h _)

/-- `insertDirectory` is `makeAncestors` and one more `putDirectory`. -/
theorem insertDirectory (hput : KeptByPut holds) (h : holds tree) (path : String) :
    holds (tree.insertDirectory path) :=
  hput.putDirectory (hput.makeAncestors h _) _

end KeptByPut

/-- `SameInodes` as an earlier tree is kept by every `put`: it gives a path that has an entry the
inode of that entry. -/
theorem keptByPut_sameInodes (tree : FlatTree) : KeptByPut (SameInodes tree) :=
  fun after path node h => h.trans (sameInodes_put after path node)

end FlatTree

end WasiHost
