import WasiHost.Proofs.FileSystem.Insertion

/-!
# Inodes, and what an insertion shows

Each path that comes into being takes the next inode, so inodes tell paths apart, and what is put in
place of something takes its inode over, so a path never changes its inode. An insertion shows at
its own path and, as new directories, at the paths on the way that were not taken. About any other
path a tree answers as before, since neither what is there nor its inode has changed.

* **`FlatTree.Numbered`** — inodes tell paths apart, and the next one is new.
* **`FlatTree.Regular`** — the trees that insertions build.
* **`Insertion.TakesEffect`** — what an insertion shows, told by the answers about each path.
* **`FlatTree.insertAll_takes_effect`** — every sequence of insertions.
-/

namespace WasiHost

/-! ## The paths above a path

Prefixes of names, as paths. The root is above every other path here, while `FlatTree.ancestors`
leaves it out: `mem_ancestors_names_iff`. -/

namespace Path

/-- A directory on the way from the root to a path, the root included and the path itself not. -/
def Above (q p : String) : Prop :=
  ∃ ns, ns <+: names root p ∧ ns ≠ names root p ∧ q = render ns

/-- `normalize` keeps the `names` of a path. -/
theorem names_normalize_root (path : String) :
    names root (normalize root path) = names root path :=
  names_render root _ (proper_of_mem_names root path)

/-- What is `Above` a canonical form, in terms of the `names` of the path as it was given. -/
theorem above_normalize_iff {q path : String} :
    Above q (normalize root path) ↔
      ∃ ns, ns <+: names root path ∧ ns ≠ names root path ∧ q = render ns := by
  rw [Above, names_normalize_root]

/-- A path is not above itself, since names can be told from their path by `render_inj`. -/
theorem Above.ne {q path : String} (h : Above q (normalize root path)) :
    q ≠ normalize root path := by
  obtain ⟨ns, hpre, hne, rfl⟩ := above_normalize_iff.mp h
  have hproper := proper_of_mem_names root path
  intro heq
  exact hne (render_inj (fun n hn => hproper n (hpre.subset hn)) hproper heq)

theorem not_above_root (q : String) : ¬ Above q root := by
  rintro ⟨ns, hpre, hne, -⟩
  have hnames : names root root = [] := by decide
  rw [hnames] at hpre hne
  exact hne (List.prefix_nil.mp hpre)

end Path

/-! ## What a filesystem answers about a path

An observer has three questions: `stat`, `exists?` and `read`. What an insertion does is told by the
answers alone, so the statement does not depend on how the tree is stored. -/

namespace FileSystem

structure AlikeAt (before after : FileSystem) (p : String) : Prop where
  stat : after.stat p = before.stat p
  exists? : after.exists? p = before.exists? p
  read : after.read p = before.read p

structure FileAt (fs : FileSystem) (p : String) (content : Bytes) : Prop where
  exists? : fs.exists? p = true
  read : fs.read p = .ok content
  stat : ∃ s, fs.stat p = .ok s ∧ s.fileType = .regularFile ∧
    s.fileSize = UInt64.ofNat content.length

structure DirectoryAt (fs : FileSystem) (p : String) : Prop where
  exists? : fs.exists? p = true
  read : fs.read p = .error .isDir
  stat : ∃ s, fs.stat p = .ok s ∧ s.isDirectory

end FileSystem

/-- An insertion shows what was inserted, with the directories that were missing on the way, and
nothing else. -/
structure Insertion.TakesEffect (op : Insertion) (before after : FileSystem) : Prop where
  file : ∀ path content, op = .file path content →
    after.FileAt (Path.normalize Path.root path) content
  /-- A directory is made unless something is there. -/
  made : ∀ path, op = .directory path →
    before.exists? (Path.normalize Path.root path) = false →
      after.DirectoryAt (Path.normalize Path.root path)
  kept : ∀ path, op = .directory path →
    before.exists? (Path.normalize Path.root path) = true →
      before.AlikeAt after (Path.normalize Path.root path)
  above : ∀ q, Path.Above q (Path.normalize Path.root op.path) → before.exists? q = false →
    after.DirectoryAt q
  elsewhere : ∀ q, q ≠ Path.normalize Path.root op.path →
    (Path.Above q (Path.normalize Path.root op.path) → before.exists? q = true) →
      before.AlikeAt after q

namespace FlatTree

variable {tree before after : FlatTree} {p q : String}

/-! ## Inodes

The entry that a put makes has an inode that only this path can have, since it was this path's
before or is greater than all. -/

/-- Inodes tell the paths of a tree apart, and the next one is new. -/
structure Numbered (tree : FlatTree) : Prop where
  rootInode_lt : rootInode < tree.nextInode
  rootInode_le : ∀ p entry, tree.find? p = some entry → rootInode ≤ entry.inode
  lt_next : ∀ p entry, tree.find? p = some entry → entry.inode < tree.nextInode
  apart : ∀ p q entry entry', tree.find? p = some entry → tree.find? q = some entry' →
    entry.inode = entry'.inode → p = q

/-- `putEntry` has the inode of the entry that was there, or else `nextInode`, which then moves
on. -/
theorem putEntry_cases (tree : FlatTree) (path : String) (node : Node) :
    (∃ entry, tree.find? path = some entry ∧ (tree.putEntry path node).inode = entry.inode ∧
        (tree.put path node).nextInode = tree.nextInode) ∨
      (tree.putEntry path node).inode = tree.nextInode ∧
        (tree.put path node).nextInode = tree.nextInode + 1 := by
  cases htaken : tree.find? path with
  | none => exact .inr ⟨by simp [putEntry, htaken], by simp [put, htaken]⟩
  | some entry => exact .inl ⟨entry, rfl, by simp [putEntry, htaken], by simp [put, htaken]⟩

/-- In a `Numbered` tree only the path of a `put` can have the inode of what is put there. -/
theorem Numbered.eq_of_putEntry (h : tree.Numbered) {path : String} {node : Node} {entry : Entry}
    (hentry : tree.find? p = some entry) (heq : entry.inode = (tree.putEntry path node).inode) :
    p = path := by
  -- either the inode was this path's before, or no path has it yet
  obtain ⟨old, hold, hinode, -⟩ | ⟨hinode, -⟩ := putEntry_cases tree path node
  · exact h.apart p path entry old hentry hold (heq.trans hinode)
  · have hlt := h.lt_next p entry hentry
    omega

/-- An entry after `put` is `putEntry` at its path, or was there before. -/
theorem find?_put_cases {path : String} {node : Node} {entry : Entry}
    (h : (tree.put path node).find? p = some entry) :
    p = path ∧ entry = tree.putEntry path node ∨ tree.find? p = some entry := by
  rw [find?_put] at h
  split at h
  · next hp =>
    cases h
    exact .inl ⟨hp, rfl⟩
  · exact .inr h

/-- `Numbered` is kept by every put: a new entry has the next inode, and one in place of another has
that one's. -/
theorem keptByPut_numbered : KeptByPut Numbered := by
  intro tree path node h
  have hroot := h.rootInode_lt
  have hnew : rootInode ≤ (tree.putEntry path node).inode ∧
      (tree.putEntry path node).inode < (tree.put path node).nextInode ∧
        tree.nextInode ≤ (tree.put path node).nextInode := by
    obtain ⟨old, hold, hinode, hnext⟩ | ⟨hinode, hnext⟩ := putEntry_cases tree path node
    · have hle := h.rootInode_le path old hold
      have hlt := h.lt_next path old hold
      omega
    · omega
  refine ⟨by omega, ?rootInode_le, ?lt_next, ?apart⟩
  case rootInode_le =>
    intro p entry hp
    rcases find?_put_cases hp with ⟨-, rfl⟩ | hold
    · exact hnew.1
    · exact h.rootInode_le p entry hold
  case lt_next =>
    intro p entry hp
    rcases find?_put_cases hp with ⟨-, rfl⟩ | hold
    · exact hnew.2.1
    · have hlt := h.lt_next p entry hold
      omega
  case apart =>
    -- if one of the two is what was put, the other can only be at the same path
    intro p q entry entry' hp hq heq
    rcases find?_put_cases hp with ⟨rfl, rfl⟩ | hold
    · rcases find?_put_cases hq with ⟨rfl, -⟩ | hold'
      · rfl
      · exact (h.eq_of_putEntry hold' heq.symm).symm
    · rcases find?_put_cases hq with ⟨rfl, rfl⟩ | hold'
      · exact h.eq_of_putEntry hold heq
      · exact h.apart p q entry entry' hold hold' heq

theorem numbered_empty : empty.Numbered := by
  -- there is nothing but the root
  have hentry (p : String) (entry : Entry) (h : empty.find? p = some entry) :
      p = Path.root ∧ entry.inode = rootInode := by
    by_cases hp : p = Path.root
    · subst hp
      cases h
      exact ⟨rfl, rfl⟩
    · have hne : ¬ Path.root = p := fun heq => hp heq.symm
      simp [find?, empty, hne] at h
  refine ⟨by decide, ?_, ?_, ?_⟩
  · intro p entry h
    exact Nat.le_of_eq (hentry p entry h).2.symm
  · intro p entry h
    rw [(hentry p entry h).2]
    decide
  · intro p q entry entry' h h' _
    rw [(hentry p entry h).1, (hentry q entry' h').1]

/-- Every tree that `insertAll` builds is `Numbered`. -/
theorem numbered_insertAll (ops : List Insertion) : (insertAll ops).Numbered :=
  keptByPut_numbered.foldl numbered_empty ops

/-! ## What a tree answers

From what is at a path to the answers about it, and back for the question whether it exists. -/

/-- Asking a tree for attributes, as `FileSystem.exists?` does, tells whether `FlatTree.exists?`
finds an entry. -/
theorem exists?_fileSystem (tree : FlatTree) (p : String) :
    tree.fileSystem.exists? p = tree.exists? p := by
  show (tree.stat p).toBool = _
  rw [stat, FlatTree.exists?]
  cases tree.find? p with
  | none => rfl
  | some entry => rfl

/-- Whether a tree answers that a path exists, told by `nodeAt?`. -/
theorem exists?_eq_isSome (tree : FlatTree) (p : String) :
    tree.fileSystem.exists? p = (tree.nodeAt? p).isSome := by
  rw [exists?_fileSystem, FlatTree.exists?, nodeAt?, Option.isSome_map]

theorem exists?_eq_false_iff : tree.fileSystem.exists? p = false ↔ tree.nodeAt? p = none := by
  rw [exists?_eq_isSome]
  simp

theorem find?_of_nodeAt? {node : Node} (h : tree.nodeAt? p = some node) :
    ∃ inode, tree.find? p = some ⟨inode, node⟩ := by
  obtain ⟨entry, hentry, rfl⟩ := Option.map_eq_some_iff.mp h
  exact ⟨entry.inode, hentry⟩

/-- Where `nodeAt?` finds a file the `fileSystem` answers `FileAt`. -/
theorem fileAt_of_nodeAt? {content : Bytes} (h : tree.nodeAt? p = some (.file content)) :
    tree.fileSystem.FileAt p content := by
  obtain ⟨inode, hfind⟩ := find?_of_nodeAt? h
  refine ⟨by rw [exists?_eq_isSome, h]; rfl, ?_, _, stat_eq_ok_iff.mpr ⟨_, hfind, rfl⟩, rfl, rfl⟩
  show tree.read p = _
  rw [read, hfind]

/-- Where `nodeAt?` finds a directory the `fileSystem` answers `DirectoryAt`. -/
theorem directoryAt_of_nodeAt? (h : tree.nodeAt? p = some .directory) :
    tree.fileSystem.DirectoryAt p := by
  obtain ⟨inode, hfind⟩ := find?_of_nodeAt? h
  refine ⟨by rw [exists?_eq_isSome, h]; rfl, ?_, _, stat_eq_ok_iff.mpr ⟨_, hfind, rfl⟩, ?_⟩
  · show tree.read p = _
    rw [read, hfind]
  · exact (isDirectory_attributes _).mpr rfl

/-- Trees with `SameInodes` and the same `nodeAt?` at a path answer alike there. -/
theorem alikeAt_of_nodeAt? (hinodes : SameInodes before after)
    (h : after.nodeAt? p = before.nodeAt? p) :
    before.fileSystem.AlikeAt after.fileSystem p := by
  have hfind : after.find? p = before.find? p := by
    -- nothing before and after, or the same node with the inode it had
    cases hbefore : before.find? p with
    | none => simpa [nodeAt?, hbefore] using h
    | some entry =>
      obtain ⟨entry', hafter, hinode⟩ := hinodes p entry hbefore
      have hnode : entry'.node = entry.node := by simpa [nodeAt?, hbefore, hafter] using h
      obtain ⟨inode, node⟩ := entry
      obtain ⟨inode', node'⟩ := entry'
      simp only at hinode hnode
      rw [hafter, hinode, hnode]
  have hstat : after.stat p = before.stat p := by rw [stat, hfind, stat]
  refine ⟨hstat, ?_, ?_⟩
  · show (after.stat p).toBool = (before.stat p).toBool
    rw [hstat]
  · show after.read p = before.read p
    rw [read, hfind, read]

/-! ## One insertion

By what is at each path (`nodeAt?_insertFile`, `nodeAt?_insertDirectory`), and for paths elsewhere
by `alikeAt_of_nodeAt?` and inodes that stay. -/

/-- At any path but its own, both kinds of `Insertion` do the same: they make a directory at the
`ancestors` where nothing is. -/
theorem nodeAt?_insert_of_ne {op : Insertion} (hp : p ≠ Path.normalize Path.root op.path) :
    (tree.insert op).nodeAt? p =
      (tree.nodeAt? p).or (if p ∈ ancestors op.names then some .directory else none) := by
  cases op with
  | file path content =>
    rw [insert, nodeAt?_insertFile]
    exact if_neg hp
  | directory path =>
    rw [insert, nodeAt?_insertDirectory]
    simp only [show p ≠ Path.normalize Path.root path from hp, or_false]
    rfl

theorem sameInodes_insert (tree : FlatTree) (op : Insertion) : SameInodes tree (tree.insert op) :=
  (keptByPut_sameInodes tree).insert (.refl tree) op

/-- The `ancestors` are what is `Above` the path, but for the root. -/
theorem mem_ancestors_names_iff {op : Insertion} :
    p ∈ ancestors op.names ↔
      p ≠ Path.root ∧ Path.Above p (Path.normalize Path.root op.path) := by
  rw [mem_ancestors_iff, Path.above_normalize_iff]
  constructor
  · rintro ⟨ns, hnil, hpre, hne, rfl⟩
    refine ⟨fun hroot => hnil ?_, ns, hpre, hne, rfl⟩
    exact Path.render_inj (op.proper_on_way hpre) (by simp) (hroot.trans Path.render_nil.symm)
  · rintro ⟨hroot, ns, hpre, hne, rfl⟩
    refine ⟨ns, ?_, hpre, hne, rfl⟩
    rintro rfl
    exact hroot Path.render_nil

/-- In a tree with a root `insert` shows what `TakesEffect` says, and nothing else. -/
theorem takesEffect_insert (hroot : tree.fileSystem.exists? Path.root = true) (op : Insertion) :
    op.TakesEffect tree.fileSystem (tree.insert op).fileSystem := by
  have hinodes := sameInodes_insert tree op
  refine ⟨?file, ?made, ?kept, ?above, ?elsewhere⟩
  case file =>
    rintro path content rfl
    apply fileAt_of_nodeAt?
    rw [insert, nodeAt?_insertFile, if_pos rfl]
  case made =>
    rintro path rfl hmissing
    apply directoryAt_of_nodeAt?
    rw [insert, nodeAt?_insertDirectory, exists?_eq_false_iff.mp hmissing]
    simp
  case kept =>
    rintro path rfl htaken
    apply alikeAt_of_nodeAt? hinodes
    rw [exists?_eq_isSome] at htaken
    obtain ⟨node, hnode⟩ := Option.isSome_iff_exists.mp htaken
    rw [insert, nodeAt?_insertDirectory, hnode, Option.some_or]
  case above =>
    intro q habove hmissing
    have hne : q ≠ Path.root := by
      rintro rfl
      rw [hroot] at hmissing
      cases hmissing
    apply directoryAt_of_nodeAt?
    rw [nodeAt?_insert_of_ne habove.ne, exists?_eq_false_iff.mp hmissing,
      if_pos (mem_ancestors_names_iff.mpr ⟨hne, habove⟩), Option.none_or]
  case elsewhere =>
    intro q hne htaken
    apply alikeAt_of_nodeAt? hinodes
    rw [nodeAt?_insert_of_ne hne]
    by_cases hway : q ∈ ancestors op.names
    · -- on the way something is there already
      have hexists := htaken (mem_ancestors_names_iff.mp hway).2
      rw [exists?_eq_isSome] at hexists
      obtain ⟨node, hnode⟩ := Option.isSome_iff_exists.mp hexists
      rw [hnode, Option.some_or]
    · rw [if_neg hway, Option.or_none]

/-! ## A sequence of insertions

Insertions after others begin with a tree that has a root, so `takesEffect_insert` applies to each
of them. -/

/-- A tree as insertions build it. -/
structure Regular (tree : FlatTree) : Prop where
  canonical : ∀ p, tree.fileSystem.exists? p = true → Path.Canonical p
  above : ∀ p q, tree.fileSystem.exists? p = true → Path.Above q p →
    tree.fileSystem.exists? q = true
  numbered : tree.Numbered
  /-- As long as they are words, inodes are shown as they are. -/
  shown : tree.nextInode ≤ UInt64.size → ∀ p q s t, tree.fileSystem.stat p = .ok s →
    tree.fileSystem.stat q = .ok t → s.inode = t.inode → p = q

/-- `exists_insertAll_iff` in terms of what the filesystem answers. -/
theorem exists?_insertAll_iff {ops : List Insertion} :
    (insertAll ops).fileSystem.exists? p = true ↔
      p = Path.root ∨ ∃ op ∈ ops, ∃ ns, ns <+: op.names ∧ p = Path.render ns := by
  rw [exists?_eq_isSome]
  exact exists_insertAll_iff

/-- Inodes are shown modulo the range of a word. Below that range they tell paths apart, by
`Numbered.apart`. -/
theorem Numbered.apart_of_stat (h : tree.Numbered) (hwords : tree.nextInode ≤ UInt64.size)
    {s t : FileStat} (hs : tree.stat p = .ok s) (ht : tree.stat q = .ok t)
    (heq : s.inode = t.inode) : p = q := by
  obtain ⟨entry, hentry, rfl⟩ := stat_eq_ok_iff.mp hs
  obtain ⟨entry', hentry', rfl⟩ := stat_eq_ok_iff.mp ht
  have hlt := h.lt_next p entry hentry
  have hlt' := h.lt_next q entry' hentry'
  have hinode : entry.inode % UInt64.size = entry'.inode % UInt64.size := by
    simpa [attributes, ← UInt64.toNat_inj] using heq
  rw [Nat.mod_eq_of_lt (Nat.lt_of_lt_of_le hlt hwords),
    Nat.mod_eq_of_lt (Nat.lt_of_lt_of_le hlt' hwords)] at hinode
  exact h.apart p q entry entry' hentry hentry' hinode

/-- Insertions build trees that are `Regular`: their paths are canonical and everything has its
directories above it. -/
theorem regular_insertAll (ops : List Insertion) : (insertAll ops).Regular := by
  have hnumbered := numbered_insertAll ops
  refine ⟨?canonical, ?above, hnumbered, fun hwords p q s t hs ht heq =>
    hnumbered.apart_of_stat hwords hs ht heq⟩
  case canonical =>
    intro p hexists
    obtain rfl | ⟨op, hop, ns, hpre, rfl⟩ := exists?_insertAll_iff.mp hexists
    · exact Path.canonical_root
    · intro base
      rw [Path.normalize, Path.names_render base ns (op.proper_on_way hpre)]
  case above =>
    intro p q hexists habove
    apply exists?_insertAll_iff.mpr
    obtain rfl | ⟨op, hop, ms, hms, rfl⟩ := exists?_insertAll_iff.mp hexists
    · exact absurd habove (Path.not_above_root q)
    · -- a prefix of a prefix of the names is on the way as well
      obtain ⟨ns, hpre, -, rfl⟩ := habove
      rw [Path.names_render Path.root ms (op.proper_on_way hms)] at hpre
      exact .inr ⟨op, hop, ns, hpre.trans hms, rfl⟩

/-- `insertAll` builds `Regular` trees, in which paths keep their inodes, and each `insert` shows at
its own path and at the missing directories above it, and nowhere else. -/
theorem insertAll_takes_effect (ops : List Insertion) :
    (insertAll ops).Regular ∧
      (∀ later, SameInodes (insertAll ops) (insertAll (ops ++ later))) ∧
        ∀ op : Insertion,
          op.TakesEffect (insertAll ops).fileSystem ((insertAll ops).insert op).fileSystem := by
  refine ⟨regular_insertAll ops, fun later => ?_, fun op => ?_⟩
  · rw [insertAll, insertAll, List.foldl_append]
    exact sameInodes_foldl _ later
  · exact takesEffect_insert (exists?_insertAll_iff.mpr (.inl rfl)) op

end FlatTree

end WasiHost
