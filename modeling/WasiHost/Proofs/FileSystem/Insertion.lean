import WasiHost.Proofs.FileSystem.Composition
import WasiHost.Proofs.FileSystem.FlatTree

/-!
# Trees that are built by insertions

After any sequence of insertions a path exists if it is the root or on the way to something that was
inserted, and a file is there if one was ever inserted there, since a file goes over whatever is at
its path and nothing goes over a file. So the order of the insertions plays no part in the shape,
and what is built is a tree exactly if no file was inserted at the root or on the way to anything
else.

* **`FlatTree.insertAll`** — a sequence of insertions.
* **`FlatTree.exists_insertAll_iff`**, **`FlatTree.isFile_insertAll_iff`** — what it leaves at a
  path.
* **`FlatTree.IsTree`** — the root is a directory, and so is the parent of everything else.
* **`FlatTree.isTree_insertAll_iff`** — when a sequence of insertions leaves a tree.
-/

namespace WasiHost

/-- A file or a directory that is put into a tree. -/
inductive Insertion where
  | file (path : String) (content : Bytes)
  | directory (path : String)

namespace Insertion

/-- Where it is put. -/
def path : Insertion → String
  | file path _ => path
  | directory path => path

/-- The names that lead there from the root. -/
def names (op : Insertion) : List Path.Name :=
  Path.names Path.root op.path

def isFile : Insertion → Bool
  | file _ _ => true
  | directory _ => false

/-- The names that lead somewhere are `Path.Proper`. -/
theorem proper_names (op : Insertion) : ∀ n ∈ op.names, Path.Proper n :=
  Path.proper_of_mem_names Path.root op.path

theorem proper_on_way (op : Insertion) {ns : List Path.Name} (h : ns <+: op.names) :
    ∀ n ∈ ns, Path.Proper n :=
  fun n hn => op.proper_names n (h.subset hn)

/-- What is there once it is put there. -/
def Makes (op : Insertion) (p : String) : Prop :=
  p ∈ FlatTree.ancestors op.names ∨ p = Path.render op.names

end Insertion

namespace FlatTree

def insert (tree : FlatTree) : Insertion → FlatTree
  | .file path content => tree.insertFile path content
  | .directory path => tree.insertDirectory path

/-- The tree that is built from nothing by insertions, one after the other. -/
def insertAll (ops : List Insertion) : FlatTree :=
  ops.foldl insert empty

def IsFile (tree : FlatTree) (p : String) : Prop :=
  ∃ content, tree.nodeAt? p = some (.file content)

variable {tree : FlatTree} {p : String} {ops : List Insertion}

/-! ## One insertion

Both kinds of insertion are looked at together from here on: what they leave at a path, and whether
that is a file. -/

/-- Something is at a path after an insertion if it was before, or if the insertion `Makes` it. -/
theorem isSome_nodeAt?_insert (tree : FlatTree) (op : Insertion) (p : String) :
    ((tree.insert op).nodeAt? p).isSome ↔ (tree.nodeAt? p).isSome ∨ op.Makes p := by
  cases op with
  | file path content =>
    rw [insert, nodeAt?_insertFile]
    show _ ↔ _ ∨ (p ∈ ancestors (Path.names Path.root path) ∨ p = Path.normalize Path.root path)
    -- at its own path a file takes the place of what is there
    by_cases hp : p = Path.normalize Path.root path
    · simp [hp]
    · by_cases hway : p ∈ ancestors (Path.names Path.root path)
      · simp [hp, hway]
      · simp [hp, hway]
  | directory path =>
    rw [insert, nodeAt?_insertDirectory]
    show _ ↔ _ ∨ (p ∈ ancestors (Path.names Path.root path) ∨ p = Path.normalize Path.root path)
    by_cases hmade : p ∈ ancestors (Path.names Path.root path) ∨ p = Path.normalize Path.root path
    · simp [hmade]
    · simp [hmade]

/-- `insert` leaves a file a file, and makes one only of what is inserted as a file. -/
theorem isFile_insert_iff (tree : FlatTree) (op : Insertion) (p : String) :
    (tree.insert op).IsFile p ↔ tree.IsFile p ∨ op.isFile ∧ p = Path.render op.names := by
  -- a directory is made only where nothing is, so it replaces no file
  have hkept (c : Prop) [Decidable c] (content : Bytes) :
      (tree.nodeAt? p).or (if c then some .directory else none) = some (.file content) ↔
        tree.nodeAt? p = some (.file content) := by
    by_cases hc : c
    · cases tree.nodeAt? p <;> simp [hc]
    · simp [hc]
  cases op with
  | file path content =>
    simp only [IsFile, insert, nodeAt?_insertFile]
    show _ ↔ _ ∨ true ∧ p = Path.normalize Path.root path
    by_cases hp : p = Path.normalize Path.root path
    · simp [hp]
    · simp only [if_neg hp, hkept]
      simp [hp]
  | directory path =>
    simp only [IsFile, insert, nodeAt?_insertDirectory, hkept]
    show _ ↔ _ ∨ false = true ∧ _
    simp

/-- What every `put` keeps is kept by `insert` of either kind. -/
theorem KeptByPut.insert {holds : FlatTree → Prop} (hput : KeptByPut holds) (h : holds tree)
    (op : Insertion) : holds (tree.insert op) := by
  cases op with
  | file path content => exact hput.insertFile h path content
  | directory path => exact hput.insertDirectory h path

/-! ## A sequence of insertions

By induction on the insertions. What each leaves is a disjunction of what was there and what it
adds, so the order drops out of the result. -/

/-- Something is at a path if it was before any of the insertions, or if one of them `Makes` it. -/
theorem isSome_nodeAt?_foldl (tree : FlatTree) (ops : List Insertion) (p : String) :
    ((ops.foldl insert tree).nodeAt? p).isSome ↔
      (tree.nodeAt? p).isSome ∨ ∃ op ∈ ops, op.Makes p := by
  induction ops generalizing tree with
  | nil => simp
  | cons op rest ih =>
    rw [List.foldl_cons, ih, isSome_nodeAt?_insert]
    simp only [List.mem_cons, exists_eq_or_imp, or_assoc]

/-- A file is at a path if it was before, or if one of the insertions is a file there. -/
theorem isFile_foldl_iff (tree : FlatTree) (ops : List Insertion) (p : String) :
    (ops.foldl insert tree).IsFile p ↔
      tree.IsFile p ∨ ∃ op ∈ ops, op.isFile ∧ p = Path.render op.names := by
  induction ops generalizing tree with
  | nil => simp
  | cons op rest ih =>
    rw [List.foldl_cons, ih, isFile_insert_iff]
    simp only [List.mem_cons, exists_eq_or_imp, or_assoc]

/-- What every `put` keeps is kept by a sequence of `insert`. -/
theorem KeptByPut.foldl {holds : FlatTree → Prop} (hput : KeptByPut holds) (h : holds tree)
    (ops : List Insertion) : holds (ops.foldl FlatTree.insert tree) := by
  induction ops generalizing tree with
  | nil => exact h
  | cons op rest ih => exact ih (hput.insert h op)

theorem sameInodes_foldl (tree : FlatTree) (ops : List Insertion) :
    SameInodes tree (ops.foldl insert tree) :=
  (keptByPut_sameInodes tree).foldl (.refl tree) ops

/-- In the `empty` tree there is the root, and it is a directory. -/
theorem nodeAt?_empty (p : String) :
    empty.nodeAt? p = if p = Path.root then some .directory else none := by
  by_cases hp : p = Path.root
  · subst hp
    rfl
  · have hroot : ¬ Path.root = p := fun heq => hp heq.symm
    simp [nodeAt?, find?, empty, hp, hroot]

/-- `insertAll` leaves something at the root and at every prefix of the names of what was inserted,
and nowhere else. -/
theorem exists_insertAll_iff :
    ((insertAll ops).nodeAt? p).isSome ↔
      p = Path.root ∨ ∃ op ∈ ops, ∃ ns, ns <+: op.names ∧ p = Path.render ns := by
  have hempty : (empty.nodeAt? p).isSome ↔ p = Path.root := by
    rw [nodeAt?_empty]
    split <;> simp [*]
  rw [insertAll, isSome_nodeAt?_foldl, hempty]
  constructor
  · rintro (rfl | ⟨op, hop, hway | rfl⟩)
    · exact .inl rfl
    · obtain ⟨before, -, hpre, -, rfl⟩ := mem_ancestors_iff.mp hway
      exact .inr ⟨op, hop, before, hpre, rfl⟩
    · exact .inr ⟨op, hop, op.names, List.prefix_refl _, rfl⟩
  · rintro (rfl | ⟨op, hop, ns, hpre, rfl⟩)
    · exact .inl rfl
    · -- the root is there from the start; a proper prefix is on the way, and all the names are the
      -- path itself
      by_cases hnil : ns = []
      · rw [hnil]
        exact .inl Path.render_nil
      · by_cases hall : ns = op.names
        · exact .inr ⟨op, hop, .inr (congrArg Path.render hall)⟩
        · exact .inr ⟨op, hop, .inl (mem_ancestors_iff.mpr ⟨ns, hnil, hpre, hall, rfl⟩)⟩

/-- A file is where one was inserted, since `isFile_insert_iff` neither takes one away nor makes one
otherwise. -/
theorem isFile_insertAll_iff :
    (insertAll ops).IsFile p ↔ ∃ op ∈ ops, op.isFile ∧ p = Path.render op.names := by
  have hempty : ¬ empty.IsFile p := by
    rintro ⟨content, hfile⟩
    rw [nodeAt?_empty] at hfile
    split at hfile
    · cases hfile
    · cases hfile
  rw [insertAll, isFile_foldl_iff]
  simp [hempty]

/-! ## The shape of a tree

Being a tree is said by what `FlatTree.stat` answers. Since there is something above everything
(`exists_insertAll_iff`), a tree fails to be one only where a file stands above something, or at the
root. -/

/-- `stat` succeeds exactly where `find?` has an entry, and tells its `attributes`. -/
theorem stat_eq_ok_iff {s : FileStat} :
    tree.stat p = .ok s ↔ ∃ entry, tree.find? p = some entry ∧ s = attributes entry := by
  rw [stat]
  cases tree.find? p <;> simp [eq_comm]

/-- The `attributes` of an entry are those of a directory if its node is one. -/
theorem isDirectory_attributes (entry : Entry) :
    (attributes entry).isDirectory ↔ entry.node = .directory := by
  cases h : entry.node <;> simp [attributes, FileStat.isDirectory, h]

/-- What `stat` finds is a directory exactly if it is not `IsFile`. -/
theorem isDirectory_iff {s : FileStat} (h : tree.stat p = .ok s) :
    s.isDirectory ↔ ¬ tree.IsFile p := by
  obtain ⟨entry, hentry, rfl⟩ := stat_eq_ok_iff.mp h
  rw [isDirectory_attributes, IsFile, nodeAt?, hentry, Option.map_some]
  cases entry.node with
  | directory => simp
  | file content => simp

theorem exists_stat_iff : (∃ s, tree.stat p = .ok s) ↔ (tree.nodeAt? p).isSome := by
  rw [stat, nodeAt?]
  cases tree.find? p <;> simp

/-- The root is a directory with its own inode, and everything else stands in a directory. -/
structure IsTree (tree : FlatTree) : Prop where
  root : ∃ s, tree.stat Path.root = .ok s ∧ s.isDirectory ∧ s.inode = UInt64.ofNat rootInode
  parent : ∀ path s, path ≠ Path.root → tree.stat path = .ok s →
    ∃ above, tree.stat (Path.normalize path "..") = .ok above ∧ above.isDirectory

theorem IsTree.not_isFile_root (h : tree.IsTree) : ¬ tree.IsFile Path.root := by
  obtain ⟨s, hstat, hdirectory, -⟩ := h.root
  exact (isDirectory_iff hstat).mp hdirectory

/-- In an `IsTree` there is no file right above anything that exists. -/
theorem IsTree.not_isFile_above (h : tree.IsTree) {ns : List Path.Name} {name : Path.Name}
    (hproper : ∀ n ∈ ns ++ [name], Path.Proper n)
    (hbelow : (tree.nodeAt? (Path.render (ns ++ [name]))).isSome) :
    ¬ tree.IsFile (Path.render ns) := by
  obtain ⟨s, hstat⟩ := exists_stat_iff.mpr hbelow
  have hne : Path.render (ns ++ [name]) ≠ Path.root := by
    intro heq
    have hnil := Path.render_inj hproper (by simp) (heq.trans Path.render_nil.symm)
    simp at hnil
  obtain ⟨above, habove, hdirectory⟩ := h.parent _ s hne hstat
  rw [Path.normalize_up hproper, List.dropLast_concat] at habove
  exact (isDirectory_iff habove).mp hdirectory

/-- The root keeps `rootInode`, whatever is inserted. -/
theorem stat_root_insertAll (ops : List Insertion) :
    ∃ s, (insertAll ops).stat Path.root = .ok s ∧ s.inode = UInt64.ofNat rootInode := by
  obtain ⟨entry, hentry, hinode⟩ := sameInodes_foldl empty ops Path.root _ rfl
  refine ⟨_, stat_eq_ok_iff.mpr ⟨entry, hentry, rfl⟩, ?_⟩
  rw [attributes, hinode]

/-- `insertAll` leaves an `IsTree` exactly if no file is inserted at the root or on the way to
anything else. -/
theorem isTree_insertAll_iff (ops : List Insertion) :
    (insertAll ops).IsTree ↔
      ∀ f ∈ ops, f.isFile → f.names ≠ [] ∧ ∀ g ∈ ops, f.names <+: g.names → f.names = g.names := by
  constructor
  · intro htree f hf hfile
    have hisFile : (insertAll ops).IsFile (Path.render f.names) :=
      isFile_insertAll_iff.mpr ⟨f, hf, hfile, rfl⟩
    refine ⟨fun hnil => ?_, fun g hg hpre => ?_⟩
    · rw [hnil, Path.render_nil] at hisFile
      exact htree.not_isFile_root hisFile
    · obtain ⟨rest, hrest⟩ := hpre
      cases rest with
      | nil => rwa [List.append_nil] at hrest
      | cons name later =>
        -- on the way there is something right below the file
        have hbelow : f.names ++ [name] <+: g.names := ⟨later, by simpa using hrest⟩
        have hexists : ((insertAll ops).nodeAt? (Path.render (f.names ++ [name]))).isSome :=
          exists_insertAll_iff.mpr (.inr ⟨g, hg, _, hbelow, rfl⟩)
        exact absurd hisFile (htree.not_isFile_above (g.proper_on_way hbelow) hexists)
  · intro hfiles
    constructor
    · obtain ⟨s, hstat, hinode⟩ := stat_root_insertAll ops
      refine ⟨s, hstat, (isDirectory_iff hstat).mpr fun hfile => ?_, hinode⟩
      obtain ⟨f, hf, hisFile, hpath⟩ := isFile_insertAll_iff.mp hfile
      exact (hfiles f hf hisFile).1
        (Path.render_inj f.proper_names (by simp) (hpath.symm.trans Path.render_nil.symm))
    · intro path s hne hstat
      obtain heq | ⟨op, hop, ns, hpre, rfl⟩ :=
        exists_insertAll_iff.mp (exists_stat_iff.mp ⟨s, hstat⟩)
      · exact absurd heq hne
      have hparent : ns.dropLast <+: op.names := (List.dropLast_prefix ns).trans hpre
      rw [Path.normalize_up (op.proper_on_way hpre)]
      obtain ⟨above, habove⟩ := exists_stat_iff.mpr
        (exists_insertAll_iff.mpr (.inr ⟨op, hop, _, hparent, rfl⟩))
      refine ⟨above, habove, (isDirectory_iff habove).mpr fun hfile => ?_⟩
      obtain ⟨f, hf, hisFile, hpath⟩ := isFile_insertAll_iff.mp hfile
      have hsame : ns.dropLast = f.names :=
        Path.render_inj (op.proper_on_way hparent) f.proper_names hpath
      have hwhole : ns.dropLast = op.names :=
        hsame.trans ((hfiles f hf hisFile).2 op hop (hsame ▸ hparent))
      -- but the parent is shorter than what was inserted
      have hpos : 0 < ns.length := by
        apply List.length_pos_iff.mpr
        rintro rfl
        exact hne Path.render_nil
      have hlength := hpre.length_le
      rw [← hwhole, List.length_dropLast] at hlength
      omega

/-- A file inserted at `/` takes the place of the directory there, and what is inserted below a file
has the file for a parent. -/
theorem not_isTree_insertAll :
    ¬ (insertAll [.file "/" []]).IsTree ∧
      ¬ (insertAll [.file "/a" [], .file "/a/b" []]).IsTree := by
  constructor
  · intro htree
    obtain ⟨s, hstat, hdirectory, -⟩ := htree.root
    cases hstat
    revert hdirectory
    decide
  · intro htree
    obtain ⟨above, habove, hdirectory⟩ := htree.parent "/a/b" _ (by decide) (by rfl)
    cases habove
    revert hdirectory
    decide

end FlatTree

end WasiHost
