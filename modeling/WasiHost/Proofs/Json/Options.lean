import Mathlib.Data.List.Nodup
import Mathlib.Data.List.Perm.Subperm
import WasiHost.Json.Options
import WasiHost.Proofs.Json.Value

/-!
# Options survive their JSON form

Options are read back from any text that says some of the members of their JSON form, in any order:
what is there is as it was, and what is left out has its default. Looking up a member needs no more
than that no two members have one name, and that is so of all members and hence of any of them.

* **`Json.member?_of_subperm`** — what is found of a member when some are left out and all are
  mixed.
* **`Options.keeping`** — options of which only some members are kept.
* **`Options.ofJson?_record`** — reading an object that has some members.
* **`Options.parse?_of_members`** — reading a text that says such an object.
-/

namespace WasiHost

namespace Json

/-! ## Members

`member?` looks for members by name and refuses a name that comes twice. With names that are
different that never happens, and neither the order nor what is left out matters to the members that
are there. -/

/-- `members?` of a `record` are all its members: their names are texts. -/
theorem members?_record (members : List (String × Json)) :
    members? (members.map fun (name, value) => (some name, value)) = some members := by
  induction members with
  | nil => rfl
  | cons m rest ih => rw [List.map_cons, members?, ih, Option.map_some]

theorem nodup_of_subperm {members all : List (String × Json)} (h : members.Subperm all)
    (hall : (all.map Prod.fst).Nodup) : (members.map Prod.fst).Nodup := by
  obtain ⟨kept, hperm, hkept⟩ := h
  exact (hperm.map Prod.fst).nodup_iff.mp (hall.sublist (hkept.map Prod.fst))

theorem filter_of_not_mem {members : List (String × Json)} {name : String}
    (h : name ∉ members.map Prod.fst) : members.filter (fun m => m.1 = name) = [] := by
  rw [List.filter_eq_nil_iff]
  intro m hm hname
  exact h (List.mem_map.mpr ⟨m, hm, of_decide_eq_true hname⟩)

/-- Of members with different names `filter` leaves the one with the given name. -/
theorem filter_of_mem {members : List (String × Json)} {name : String} {value : Json}
    (hnodup : (members.map Prod.fst).Nodup) (hmem : (name, value) ∈ members) :
    members.filter (fun m => m.1 = name) = [(name, value)] := by
  induction members with
  | nil => cases hmem
  | cons m rest ih =>
    rw [List.map_cons, List.nodup_cons] at hnodup
    obtain ⟨hnew, hrest⟩ := hnodup
    -- either this is the member with the name, or no member of the rest has its name
    rcases List.mem_cons.mp hmem with rfl | hmem
    · rw [List.filter_cons_of_pos (by simp), filter_of_not_mem hnew]
    · have hne : m.1 ≠ name := by
        rintro rfl
        exact hnew (List.mem_map.mpr ⟨_, hmem, rfl⟩)
      rw [List.filter_cons_of_neg (by simpa using hne), ih hrest hmem]

/-- `member?` finds what was not left out. `List.Subperm` has members left out and the others
mixed. -/
theorem member?_of_subperm {members all : List (String × Json)} {name : String} {value : Json}
    (hall : (all.map Prod.fst).Nodup) (h : members.Subperm all) (hmem : (name, value) ∈ all) :
    member? members name = some (if name ∈ members.map Prod.fst then some value else none) := by
  rw [member?]
  split_ifs with hname
  · obtain ⟨⟨_, value'⟩, hm, rfl⟩ := List.mem_map.mp hname
    have heq := List.inj_on_of_nodup_map hall (List.Subperm.subset h hm) hmem rfl
    cases heq
    rw [filter_of_mem (nodup_of_subperm h hall) hm]
  · rw [filter_of_not_mem hname]

/-- `readAll?` reads items that `write` has written, if `read` reads each. -/
theorem readAll?_map {α : Type} {read : Json → Option α} {write : α → Json}
    (h : ∀ a, read (write a) = some a) (as : List α) : readAll? read (as.map write) = some as := by
  induction as with
  | nil => rfl
  | cons a rest ih => rw [List.map_cons, readAll?, h, ih]

end Json

namespace Options

/-! ## Values of members

Each kind of value is read as it was written. A member that is left out is not read at all:
`readOr_ite`. -/

/-- `readEnvironment?` reads an array of pairs of texts. -/
theorem readEnvironment?_array (environment : List (String × String)) :
    readEnvironment?
        (.array (environment.map fun (key, value) => .array [.text key, .text value])) =
      some environment := by
  rw [readEnvironment?, Json.asList?]
  refine Json.readAll?_map ?_ environment
  exact fun _ => rfl

theorem readArguments?_array (arguments : List String) :
    readArguments? (.array (arguments.map .text)) = some arguments := by
  rw [readArguments?, Json.asList?]
  refine Json.readAll?_map ?_ arguments
  exact fun _ => rfl

/-- `readOctet?` accepts integers below 256, and an octet is written as one. -/
theorem readOctet?_integer (b : UInt8) : readOctet? (.integer b.toNat) = some b := by
  have hlt := b.toNat_lt
  rw [readOctet?, if_pos (by omega), Int.toNat_natCast, UInt8.ofNat_toNat]

/-- Octets are read as they were written, by `Json.readAll?_map`. -/
theorem readBytes?_array (bytes : Bytes) :
    readBytes? (.array (bytes.map fun b => .integer b.toNat)) = some bytes := by
  rw [readBytes?, Json.asList?]
  exact Json.readAll?_map readOctet?_integer bytes

/-- `readOr` of a value that may be left out: what was written, or the default. -/
theorem readOr_ite {α : Type} {read : Json → Option α} {json : Json} {a : α}
    (h : read json = some a) (default : α) (p : Prop) [Decidable p] :
    readOr default read (if p then some json else none) = some (if p then a else default) := by
  split_ifs
  · exact h
  · rfl

/-! ## Options

Reading is looking up five members. Each is found or has its default, by
`Json.member?_of_subperm`. -/

/-- Options of which only the members of given names are kept; the others have their defaults. -/
def keeping (options : Options) (names : List String) : Options :=
  let default : Options := {}
  { environment := if environmentMember ∈ names then options.environment else default.environment
    arguments := if argumentsMember ∈ names then options.arguments else default.arguments
    enableClock := if clockMember ∈ names then options.enableClock else default.enableClock
    enableTrace := if traceMember ∈ names then options.enableTrace else default.enableTrace
    stdin := if stdinMember ∈ names then options.stdin else default.stdin }

variable {options : Options} {members : List (String × Json)}

theorem nodup_members (options : Options) : (options.members.map Prod.fst).Nodup := by
  show [environmentMember, argumentsMember, clockMember, traceMember, stdinMember].Nodup
  decide

/-- If no member is left out, `Options.keeping` keeps everything. -/
theorem keeping_of_perm (h : members.Perm options.members) :
    options.keeping (members.map Prod.fst) = options := by
  have hnames : ∀ name ∈ options.members.map Prod.fst, name ∈ members.map Prod.fst :=
    fun name hname => (h.map Prod.fst).mem_iff.mpr hname
  simp only [Options.members, List.map_cons, List.map_nil, List.forall_mem_cons] at hnames
  obtain ⟨henvironment, harguments, hclock, htrace, hstdin, -⟩ := hnames
  simp only [keeping, if_pos henvironment, if_pos harguments, if_pos hclock, if_pos htrace,
    if_pos hstdin]

/-- `ofJson?` of an object with some of `options.members`, in any order, has those members, and the
others take their defaults. -/
theorem ofJson?_record (h : members.Subperm options.members) :
    ofJson? (.record members) = some (options.keeping (members.map Prod.fst)) := by
  -- one lookup for each of the five members, all by the same lemma
  have hfound {name : String} {value : Json} (hmem : (name, value) ∈ options.members) :=
    Json.member?_of_subperm (nodup_members options) h hmem
  have henvironment := hfound (.head _)
  have harguments := hfound (.tail _ (.head _))
  have hclock := hfound (.tail _ (.tail _ (.head _)))
  have htrace := hfound (.tail _ (.tail _ (.tail _ (.head _))))
  have hstdin := hfound (.tail _ (.tail _ (.tail _ (.tail _ (.head _)))))
  rw [Json.record, ofJson?, Json.members?_record, Option.bind_eq_bind, Option.bind_some,
    henvironment, harguments, hclock, htrace, hstdin]
  simp only [Option.bind_eq_bind, Option.bind_some, ofParts?,
    readOr_ite (readEnvironment?_array _), readOr_ite (readArguments?_array _),
    readOr_ite (rfl : Json.asBool? (.bool _) = some _), readOr_ite (readBytes?_array _)]
  rfl

/-- No value in `options.members` is a `real`, so all are `Readable`. -/
theorem readable_members (options : Options) : ∀ m ∈ options.members, m.2.Readable := by
  have htext (s : String) : (Json.text s).Readable := List.forall_mem_singleton.mpr trivial
  have hbool (b : Bool) : (Json.bool b).Readable := List.forall_mem_singleton.mpr trivial
  have hinteger (n : Int) : (Json.integer n).Readable := List.forall_mem_singleton.mpr trivial
  have hpair (a b : String) : (Json.array [.text a, .text b]).Readable :=
    Json.readable_array (List.forall_mem_cons.mpr
      ⟨htext a, List.forall_mem_singleton.mpr (htext b)⟩)
  simp only [Options.members, List.forall_mem_cons]
  refine ⟨?environment, ?arguments, hbool _, hbool _, ?stdin, nofun⟩
  case environment =>
    exact Json.readable_array (List.forall_mem_map.mpr fun entry _ => hpair _ _)
  case arguments => exact Json.readable_array (List.forall_mem_map.mpr fun argument _ => htext _)
  case stdin => exact Json.readable_array (List.forall_mem_map.mpr fun octet _ => hinteger _)

/-- Options survive their JSON form. Let some of `options.members` be written as an object, in any
order. Rendered or with any blanks between the tokens, `parse?` reads the text and gives the options
with what was left out at its default. If nothing was left out it gives the options back. -/
theorem parse?_of_members (options : Options) {members : List (String × Json)}
    (h : members.Subperm options.members) :
    (∀ text, (Json.record members).WrittenAs text →
        parse? text = some (options.keeping (members.map Prod.fst)) ∧
          (members.Perm options.members → parse? text = some options)) ∧
      (Json.record members).WrittenAs (Json.record members).render := by
  constructor
  · intro text htext
    have hparse : parse? text = some (options.keeping (members.map Prod.fst)) := by
      rw [parse?, Json.parse?_of_writtenAs htext, Option.bind_some, ofJson?_record h]
    exact ⟨hparse, fun hall => by rw [hparse, keeping_of_perm hall]⟩
  · apply Json.writtenAs_render
    exact Json.readable_record fun m hm => readable_members options m (List.Subperm.subset h hm)

/-- Of two members out of five, written in another order, `parse?` reads the two. -/
theorem parse?_of_two_members :
    let options : Options :=
      { environment := [("A", "1")], arguments := ["p"], enableClock := false, stdin := [0, 255] }
    let members : List (String × Json) :=
      [(stdinMember, .array [.integer 0, .integer 255]), (clockMember, .bool false)]
    members.Subperm options.members ∧
      (Json.record members).render = "\x7b\"stdin\":[0,255],\"enable_clock\":false\x7d" ∧
      parse? "\x7b\"stdin\":[0,255],\"enable_clock\":false\x7d" =
        some { enableClock := false, stdin := [0, 255] } := by
  intro options members
  have hsome : members.Subperm options.members :=
    ⟨_, .swap _ _ _, .cons _ (.cons _ (.cons_cons _ (.cons _ (.cons_cons _ .slnil))))⟩
  have htext : (Json.record members).render =
      "\x7b\"stdin\":[0,255],\"enable_clock\":false\x7d" := by
    decide +kernel
  obtain ⟨hread, hwritten⟩ := parse?_of_members options hsome
  refine ⟨hsome, htext, ?_⟩
  rw [← htext, (hread _ hwritten).1]
  rfl

end Options

end WasiHost
