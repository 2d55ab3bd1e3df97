import WasiHost.Proofs.Memory.Gather

/-!
# A scatter, chunk by chunk

A source that is scattered over buffers falls into chunks, one for every buffer that is reached
while octets are left. The chunks decide everything: whether the scatter succeeds, how many octets
it has moved, and what each index holds afterwards, which is what the last chunk there has put
there. Buffers may overlap, so the chunks may, and together they may be longer than a word can
count.

* **`chunks`**, **`getElem?_chunks`** — the chunks, and where each begins in the source.
* **`octets_writeAll`** — what is there once chunks were put somewhere one after the other.
* **`scatterFrom_eq_ok_iff`** — when a scatter succeeds, and with what.
* **`gathered_pour`** — what buffers that do not overlap hold afterwards.
-/

namespace WasiHost

open IoVec LinearMemory

/-- Octets, and the address they are put at. -/
structure Chunk where
  address : UInt32
  data : Bytes

namespace Chunk

def Inside (c : Chunk) (size : Nat) : Prop :=
  c.address.toNat + c.data.length ≤ size

/-- What the chunk puts at an index, if it reaches there. -/
def octet? (c : Chunk) (i : Nat) : Option UInt8 :=
  if c.address.toNat ≤ i then c.data[i - c.address.toNat]? else none

/-- What the last of the chunks that reach an index puts there. -/
def latest? (cs : List Chunk) (i : Nat) : Option UInt8 :=
  cs.reverse.findSome? (·.octet? i)

/-- How many octets the chunks have together, in exact integers. -/
def total : List Chunk → Nat
  | [] => 0
  | c :: cs => c.data.length + total cs

/-- The first of the chunks is asked last by `latest?`. -/
theorem latest?_cons (c : Chunk) (cs : List Chunk) (i : Nat) :
    latest? (c :: cs) i = (latest? cs i).or (c.octet? i) := by
  rw [latest?, List.reverse_cons, List.findSome?_append]
  cases h : c.octet? i <;> simp [latest?, h]

end Chunk

/-- The chunks of a source, one for each buffer as long as octets are left. -/
def chunks : List IoVec → Bytes → List Chunk
  | [], _ => []
  | v :: rest, source =>
    if source = [] then []
    else ⟨v.buf, source.take v.len.toNat⟩ :: chunks rest (source.drop v.len.toNat)

theorem chunks_nil (vectors : List IoVec) : chunks vectors [] = [] := by
  cases vectors <;> simp [chunks]

/-- The first buffer takes its chunk from the front of the source, and `chunks` of the others share
what is left. -/
theorem chunks_cons (v : IoVec) (rest : List IoVec) {source : Bytes} (h : source ≠ []) :
    chunks (v :: rest) source =
      ⟨v.buf, source.take v.len.toNat⟩ :: chunks rest (source.drop v.len.toNat) :=
  if_neg h

/-- A buffer has one of the `chunks` if those before it do not take the whole source, and its chunk
begins where theirs end. -/
theorem getElem?_chunks (vectors : List IoVec) (source : Bytes) (k : Nat) :
    (chunks vectors source)[k]? =
      if room (vectors.take k) < source.length then
        vectors[k]?.map fun v => ⟨v.buf, (source.drop (room (vectors.take k))).take v.len.toNat⟩
      else none := by
  induction vectors generalizing source k with
  | nil => simp [chunks]
  | cons v rest ih =>
    by_cases hsource : source = []
    · simp [hsource, chunks]
    · have hlength := List.length_pos_iff.mpr hsource
      rw [chunks_cons v rest hsource]
      cases k with
      | zero => simp [hlength]
      | succ k =>
        -- the rest of the source reaches a buffer exactly if the source does, past the first one
        have hreached : room (rest.take k) < (source.drop v.len.toNat).length ↔
            v.len.toNat + room (rest.take k) < source.length := by
          rw [List.length_drop]
          omega
        rw [List.getElem?_cons_succ, ih, List.take_succ_cons, room_cons, ← List.drop_drop]
        exact if_congr hreached rfl rfl

/-- All `chunks` together are as long as the octets that fit. -/
theorem total_chunks (vectors : List IoVec) (source : Bytes) :
    Chunk.total (chunks vectors source) = min source.length (room vectors) := by
  induction vectors generalizing source with
  | nil => simp [chunks, Chunk.total]
  | cons v rest ih =>
    by_cases hsource : source = []
    · simp [hsource, chunks, Chunk.total]
    · rw [chunks_cons v rest hsource, Chunk.total, ih, length_chunk, List.length_drop, room_cons]
      omega

namespace LinearMemory

/-! ## Chunks put one after the other

Chunks may overlap, so what an index holds afterwards is up to the last one there, `Chunk.latest?`.
Pouring a source is putting its chunks one after the other: `pour_eq_writeAll`. -/

def writeAll (memory : LinearMemory) (cs : List Chunk) : LinearMemory :=
  cs.foldl (fun memory c => memory.write c.address c.data) memory

theorem writeAll_cons (memory : LinearMemory) (c : Chunk) (cs : List Chunk) :
    memory.writeAll (c :: cs) = (memory.write c.address c.data).writeAll cs := rfl

/-- After `writeAll` of chunks that lie inside, an index holds what the last of them put there,
which is what `latest?` says. -/
theorem octets_writeAll {memory : LinearMemory} {cs : List Chunk}
    (h : ∀ c ∈ cs, c.Inside memory.bytes.size) (i : Nat) :
    (memory.writeAll cs).bytes[i]? = (Chunk.latest? cs i).or memory.bytes[i]? := by
  -- induction on the chunks; the memory of the rest is the one that the first chunk is in
  induction cs generalizing memory with
  | nil => rfl
  | cons c cs ih =>
    obtain ⟨hc, hcs⟩ := List.forall_mem_cons.mp h
    have hwrite : (memory.write c.address c.data).bytes[i]? =
        (c.octet? i).or memory.bytes[i]? := by
      rw [write, Octets.getElem?_write _ _ _ _ hc, Chunk.octet?]
      by_cases hlo : c.address.toNat ≤ i
      · by_cases hhi : i < c.address.toNat + c.data.length
        · have hget : i - c.address.toNat < c.data.length := by omega
          simp [hlo, hhi, List.getElem?_eq_getElem hget]
        · have hget : c.data.length ≤ i - c.address.toNat := by omega
          simp [hlo, hhi, List.getElem?_eq_none hget]
      · simp [hlo]
    rw [writeAll_cons, ih (by rwa [size_write]), hwrite, Chunk.latest?_cons, Option.or_assoc]

/-- `pour` and `writeAll` both go through the buffers in order, so they are equal by induction on
the list. -/
theorem pour_eq_writeAll (memory : LinearMemory) (vectors : List IoVec) (source : Bytes) :
    memory.pour vectors source = memory.writeAll (chunks vectors source) := by
  induction vectors generalizing memory source with
  | nil => rfl
  | cons v rest ih =>
    by_cases hsource : source = []
    · rw [hsource, pour_nil, chunks_nil]
      rfl
    · rw [pour, if_neg hsource, chunks_cons v rest hsource, writeAll_cons, ih]

/-- The buffers that `Fits` asks for are those with a chunk, and the filled part of each is as long
as the chunk. -/
theorem fits_iff_inside {memory : LinearMemory} {vectors : List IoVec} {source : Bytes} :
    memory.Fits vectors source ↔ ∀ c ∈ chunks vectors source, c.Inside memory.bytes.size := by
  induction vectors generalizing source with
  | nil => simp [Fits, filled, chunks]
  | cons v rest ih =>
    by_cases hsource : source = []
    · simp [hsource, Fits, chunks]
    · rw [fits_cons hsource, chunks_cons v rest hsource, List.forall_mem_cons, ih, Chunk.Inside,
        length_chunk]

/-! ## Buffers that do not overlap

Then no chunk is spoilt by another, and what the buffers hold afterwards can be said at once. -/

variable {memory : LinearMemory} {vectors : List IoVec}

theorem gathered_cons (memory : LinearMemory) (v : IoVec) (rest : List IoVec) :
    memory.gathered (v :: rest) = memory.held v ++ memory.gathered rest := rfl

/-- What a buffer `held` depends on the indices it covers. -/
theorem held_congr {a b : LinearMemory} {v : IoVec}
    (h : ∀ i, v.Covers i → a.bytes.octetAt i = b.bytes.octetAt i) : a.held v = b.held v :=
  Octets.slice_congr fun i hlo hhi => h i ⟨hlo, hhi⟩

/-- What buffers hold depends on the indices that they `Covers`. -/
theorem gathered_congr {a b : LinearMemory}
    (h : ∀ v ∈ vectors, ∀ i, v.Covers i → a.bytes.octetAt i = b.bytes.octetAt i) :
    a.gathered vectors = b.gathered vectors :=
  congrArg List.flatten (List.map_congr_left fun v hv => held_congr (h v hv))

/-- A buffer that a chunk was put into holds the chunk, and behind it what it held there before. -/
theorem held_write {v : IoVec} {data : Bytes} (hv : InRange v.buf v.len memory.bytes.size)
    (hlength : data.length ≤ v.len.toNat) :
    (memory.write v.buf data).held v = data ++ (memory.held v).drop data.length := by
  unfold InRange at hv
  have hrange : v.buf.toNat + data.length ≤ memory.bytes.size := by omega
  obtain ⟨k, hk⟩ := Nat.exists_eq_add_of_le hlength
  have hbefore : (memory.held v).drop data.length =
      memory.bytes.slice (v.buf.toNat + data.length) k := by
    rw [held, hk, Octets.slice_append, List.drop_left' (Octets.length_slice _ _ _)]
  rw [hbefore, held, write, hk, Octets.slice_append, Octets.slice_write _ hrange (Nat.le_refl _),
    List.take_length]
  congr 1
  refine Octets.slice_congr fun i hlo _ => Octets.octetAt_write_of_not_mem _ hrange ?_
  omega

/-- `pour` does not touch what is in no buffer. -/
theorem octetAt_pour_of_not_covers {source : Bytes} {i : Nat} (hfits : memory.Fits vectors source)
    (hi : ∀ v ∈ vectors, ¬ v.Covers i) :
    (memory.pour vectors source).bytes.octetAt i = memory.bytes.octetAt i := by
  refine octetAt_pour hfits fun w hw hcovers => ?_
  obtain ⟨v, hv, hsub⟩ := exists_mem_of_mem_filled hw
  exact hi v hv (hsub i hcovers)

/-- A source `Fits` in buffers that lie inside, since it fills parts of them at most. -/
theorem fits_of_inRange {source : Bytes}
    (h : ∀ v ∈ vectors, InRange v.buf v.len memory.bytes.size) : memory.Fits vectors source := by
  induction vectors generalizing source with
  | nil => simp [Fits, filled]
  | cons v rest ih =>
    obtain ⟨hv, hrest⟩ := List.forall_mem_cons.mp h
    by_cases hsource : source = []
    · simp [hsource, Fits]
    · unfold InRange at hv
      exact (fits_cons hsource).mpr ⟨by omega, ih hrest⟩

/-- Octets that are put over one string by `fill` and then over another one are put over both
together. -/
theorem fill_append (held more source : Bytes) (n : Nat) :
    (source.take held.length ++ held.drop (min held.length source.length)) ++
        ((source.drop held.length).take n ++ more.drop (source.length - held.length)) =
      source.take (held.length + n) ++ (held ++ more).drop source.length := by
  rw [List.drop_append, List.take_add]
  -- does the source end in the first string, or does it reach the second?
  rcases Nat.le_total source.length held.length with h | h
  · -- the octets end inside the first string
    rw [Nat.min_eq_right h, List.drop_eq_nil_of_le h]
    simp
  · rw [Nat.min_eq_left h, List.drop_length, List.drop_eq_nil_of_le h]
    simp

/-- After `pour`, buffers that do not overlap hold the source, as far as it fits, and behind it what
they held there before. -/
theorem gathered_pour {source : Bytes} (hapart : vectors.Pairwise Apart)
    (hin : ∀ v ∈ vectors, InRange v.buf v.len memory.bytes.size) :
    (memory.pour vectors source).gathered vectors =
      source.take (room vectors) ++ (memory.gathered vectors).drop source.length := by
  -- the rest of the buffers is poured over a memory that the first chunk is in, so the memory
  -- varies, too
  induction vectors generalizing memory source with
  | nil => simp [gathered]
  | cons v rest ih =>
    by_cases hsource : source = []
    · simp [hsource, pour_nil]
    · obtain ⟨hv, hrest⟩ := List.forall_mem_cons.mp hin
      obtain ⟨hfirst, htail⟩ := List.pairwise_cons.mp hapart
      have hchunk : (source.take v.len.toNat).length ≤ v.len.toNat := List.length_take_le _ _
      have hrange : v.buf.toNat + (source.take v.len.toNat).length ≤ memory.bytes.size := by
        unfold InRange at hv
        omega
      have hin' : ∀ w ∈ rest,
          InRange w.buf w.len (memory.write v.buf (source.take v.len.toNat)).bytes.size := by
        rwa [size_write]
      rw [pour, if_neg hsource, gathered_cons, ih htail hin', gathered_cons]
      -- the other buffers leave the first alone, and its chunk leaves them alone
      have hheld : ((memory.write v.buf (source.take v.len.toNat)).pour rest
          (source.drop v.len.toNat)).held v =
          source.take v.len.toNat ++ (memory.held v).drop (source.take v.len.toNat).length := by
        rw [← held_write hv hchunk]
        exact held_congr fun i hi =>
          octetAt_pour_of_not_covers (fits_of_inRange hin') fun w hw => hfirst w hw i hi
      have hothers : (memory.write v.buf (source.take v.len.toNat)).gathered rest =
          memory.gathered rest := by
        refine gathered_congr fun w hw i hi => Octets.octetAt_write_of_not_mem _ hrange ?_
        exact fun hmem => hfirst w hw i ⟨hmem.1, by omega⟩ hi
      have hlength : (memory.held v).length = v.len.toNat := Octets.length_slice _ _ _
      rw [hheld, hothers, room_cons, List.length_drop, length_chunk, ← hlength]
      exact fill_append (memory.held v) (memory.gathered rest) source (room rest)

end LinearMemory

namespace Access

variable {linear : LinearMemory} {memory' : Memory} {vectors : List IoVec} {source : Bytes}
  {copied moved : UInt32}

/-! ## When a scatter succeeds

Two things can go wrong: a chunk leaves the memory, or the count of octets leaves the range of a
word. `scatterFrom_eq_ok` says that neither has happened if the scatter has succeeded; here is the
other direction. -/

/-- A chunk that lies inside can be put there. Its length is a word because it is no longer than the
buffer. -/
theorem write_chunk {v : IoVec}
    (h : v.buf.toNat + min v.len.toNat source.length ≤ linear.bytes.size) :
    write v.buf (source.take v.len.toNat) (.attached linear) =
      .ok () (.attached (linear.write v.buf (source.take v.len.toNat))) := by
  have hlen := v.len.toNat_lt
  rw [write_eq_ok_iff, Memory.write_eq_ok_iff, length_chunk]
  exact ⟨linear, rfl, Nat.lt_of_le_of_lt (Nat.min_le_left _ _) hlen, h, rfl⟩

/-- `Access.scatterFrom` succeeds exactly if the buffers it reaches lie inside and the octets moved
can be counted, and then it was `pour`. -/
theorem scatterFrom_eq_ok_iff :
    scatterFrom copied vectors source (.attached linear) = .ok moved memory' ↔
      memory' = .attached (linear.pour vectors source) ∧ linear.Fits vectors source ∧
        moved.toNat = copied.toNat + min source.length (room vectors) := by
  refine ⟨scatterFrom_eq_ok, ?_⟩
  rintro ⟨rfl, hfits, hmoved⟩
  induction vectors generalizing linear source copied with
  | nil =>
    obtain rfl : moved = copied := UInt32.toNat_inj.mp (by simpa using hmoved)
    rfl
  | cons v rest ih =>
    rw [scatterFrom]
    by_cases hsource : source = []
    · obtain rfl : moved = copied := UInt32.toNat_inj.mp (by simpa [hsource] using hmoved)
      rw [if_pos hsource, hsource, pour_nil]
      rfl
    · obtain ⟨hv, hrest⟩ := (fits_cons hsource).mp hfits
      have hword := moved.toNat_lt
      rw [room_cons] at hmoved
      -- the count so far is a word, since the whole count is one
      have hsum : copied.toNat + min v.len.toNat source.length < UInt32.size := by
        have : UInt32.size = 2 ^ 32 := rfl
        omega
      have hadd : addWords? copied (UInt32.ofNat (source.take v.len.toNat).length) =
          some (copied + UInt32.ofNat (source.take v.len.toNat).length) := by
        rw [addWords?, length_chunk, toNat_len_filled, if_pos hsum]
      have hcopied : (copied + UInt32.ofNat (source.take v.len.toNat).length).toNat =
          copied.toNat + min v.len.toNat source.length := by
        rw [(addWords?_eq_some_iff.mp hadd).2, length_chunk, toNat_len_filled]
      rw [if_neg hsource, bind_of_ok (write_chunk hv), hadd, pour, if_neg hsource]
      refine ih (by rwa [Fits, size_write]) ?_
      rw [List.length_drop, hcopied]
      omega

/-- `Access.scatter` succeeds exactly if every one of the `chunks` lies inside and all of them
together can be counted. -/
theorem exists_scatter_iff :
    (∃ moved memory', scatter vectors source (.attached linear) = .ok moved memory') ↔
      (∀ c ∈ chunks vectors source, c.Inside linear.bytes.size) ∧
        Chunk.total (chunks vectors source) < UInt32.size := by
  -- the statement in terms of buffers, as the other lemmas have it
  rw [← fits_iff_inside, total_chunks]
  constructor
  · rintro ⟨moved, memory', h⟩
    obtain ⟨-, hfits, hmoved⟩ := scatter_eq_ok h
    exact ⟨hfits, hmoved ▸ moved.toNat_lt⟩
  · rintro ⟨hfits, htotal⟩
    have hmoved : (UInt32.ofNat (min source.length (room vectors))).toNat =
        (0 : UInt32).toNat + min source.length (room vectors) := by
      rw [UInt32.toNat_ofNat_of_lt' htotal]
      simp
    exact ⟨_, _, scatterFrom_eq_ok_iff.mpr ⟨rfl, hfits, hmoved⟩⟩

/-- Buffers behind the end of the source make no difference to `Access.scatterFrom`. -/
theorem scatterFrom_append {reached : List IoVec} (h : source.length ≤ room reached)
    (later : List IoVec) :
    scatterFrom copied (reached ++ later) source = scatterFrom copied reached source := by
  -- a source that is used up stops at any list; before that both lists have the same first buffer
  induction reached generalizing source copied with
  | nil =>
    obtain rfl : source = [] := List.length_eq_zero_iff.mp (Nat.le_zero.mp h)
    cases later <;> simp [scatterFrom]
  | cons v rest ih =>
    rw [room_cons] at h
    have hrest : (source.drop v.len.toNat).length ≤ room rest := by
      rw [List.length_drop]
      omega
    rw [List.cons_append, scatterFrom, scatterFrom]
    simp only [ih hrest]

/-- What a scatter that succeeds has moved, and what it leaves. -/
structure Leaves (before : LinearMemory) (vectors : List IoVec) (source : Bytes) (moved : UInt32)
    (after : LinearMemory) : Prop where
  count : moved.toNat = min source.length (room vectors)
  memory : after = before.writeAll (chunks vectors source)
  octets : ∀ i : Nat,
    after.bytes[i]? = (Chunk.latest? (chunks vectors source) i).or before.bytes[i]?
  /-- If no buffers overlap, they hold what was moved, and behind it what they held before. -/
  gathered : (∀ v ∈ vectors, InRange v.buf v.len before.bytes.size) → vectors.Pairwise Apart →
    ∃ held, (Memory.attached before).gather vectors = .ok held ∧
      (Memory.attached after).gather vectors =
        .ok (source.take moved.toNat ++ held.drop moved.toNat)
  untouched : ∀ i : Nat, (∀ v ∈ vectors, ¬ v.Covers i) → after.bytes[i]? = before.bytes[i]?

/-- What `Leaves` lists is all read off from `pour`, which `scatter_eq_ok` says the scatter has
done. -/
theorem leaves_of_scatter {before : LinearMemory}
    (h : scatter vectors source (.attached before) = .ok moved memory') :
    ∃ after, memory' = .attached after ∧ Leaves before vectors source moved after := by
  obtain ⟨rfl, hfits, hmoved⟩ := scatter_eq_ok h
  refine ⟨_, rfl, hmoved, pour_eq_writeAll _ _ _, fun i => ?_, fun hin hapart => ?_, fun i hi => ?_⟩
  · rw [pour_eq_writeAll]
    exact octets_writeAll (fits_iff_inside.mp hfits) i
  · have hgather := Memory.gather_eq_ok_iff.mpr ⟨hin, rfl⟩
    refine ⟨_, hgather, Memory.gather_eq_ok_iff.mpr ⟨by rwa [size_pour], ?_⟩⟩
    -- neither more octets than there are nor more than fit can be taken or left out
    have htake : source.take moved.toNat = source.take (room vectors) := by
      rw [List.take_eq_take_iff]
      omega
    have hdrop : (before.gathered vectors).drop moved.toNat =
        (before.gathered vectors).drop source.length := by
      rw [List.drop_eq_drop_iff, length_gathered]
      omega
    rw [htake, hdrop, gathered_pour hapart hin]
  · rw [Octets.getElem?_eq, Octets.getElem?_eq, size_pour, octetAt_pour_of_not_covers hfits hi]

/-- A buffer is reached if those before it leave some of the source, and takes its chunk of what
they leave. A scatter succeeds exactly if every chunk lies inside and all of them together can be
counted, and has then put the chunks one after the other. Buffers behind the end of the source are
not looked at. -/
theorem scatter_puts_chunks (vectors : List IoVec) (source : Bytes) (before : LinearMemory) :
    (∀ k : Nat, (chunks vectors source)[k]? =
        if room (vectors.take k) < source.length then
          vectors[k]?.map fun v => ⟨v.buf, (source.drop (room (vectors.take k))).take v.len.toNat⟩
        else none) ∧
      ((∃ moved memory', scatter vectors source (.attached before) = .ok moved memory') ↔
        (∀ c ∈ chunks vectors source, c.Inside before.bytes.size) ∧
          Chunk.total (chunks vectors source) < UInt32.size) ∧
      (∀ moved memory', scatter vectors source (.attached before) = .ok moved memory' →
        ∃ after, memory' = .attached after ∧ Leaves before vectors source moved after) ∧
      ∀ reached later, vectors = reached ++ later → source.length ≤ room reached →
        ∀ memory, scatter vectors source memory = scatter reached source memory := by
  refine ⟨getElem?_chunks vectors source, exists_scatter_iff, fun _ _ => leaves_of_scatter, ?_⟩
  rintro reached later rfl h memory
  exact congrFun (scatterFrom_append h later) memory

end Access

end WasiHost
