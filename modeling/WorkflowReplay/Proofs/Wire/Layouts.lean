import WorkflowReplay.Proofs.Json.RoundTrip
import WorkflowReplay.Proofs.Time.Text
import WorkflowReplay.Wire.Form

/-!
# Records are read as they were written

A value returns from its wire form when what is written for it is plain and read as the value,
after its members were put in order as on the way through a text.  For a record this follows from
its layout, member by member: every member is found by its name, as all names are different.
-/

set_option autoImplicit false

namespace WorkflowReplay

open Json (Distinct inOrder)

/-! ## Values that return -/

structure Wire.Returns {α : Type} [Wire α] (n : Nat) (a : α) : Prop where
  plain : Distinct n (encode a)
  back : decode (encode a).inOrder = some a

class Wire.Faithful (n : Nat) (α : Type) [Wire α] : Prop where
  returns (a : α) : Wire.Returns n a

/-- No value of the type is written as `null`. -/
class Wire.NeverNull (α : Type) [Wire α] : Prop where
  ne_null (a : α) : encode a ≠ .null

namespace Wire

variable {α : Type} {n : Nat}

theorem intIn_int {low high i : Int} (from_low : low ≤ i) (below : i < high) :
    intIn low high (.int i) = some i := by
  rw [intIn, if_pos ⟨from_low, below⟩]

instance : Faithful n String := ⟨fun s => ⟨.str n s, rfl⟩⟩

instance : NeverNull String := ⟨fun _ => nofun⟩

instance : Faithful n Bool := ⟨fun b => ⟨.bool n b, rfl⟩⟩

instance : Faithful n Int64 where
  returns a := by
    have low := Int64.le_toInt a
    have high := Int64.toInt_lt a
    refine ⟨.int n _ (by omega) (by omega), ?_⟩
    change (intIn _ _ (.int a.toInt)).map Int64.ofInt = some a
    rw [intIn_int (by omega) (by omega), Option.map_some, Int64.ofInt_toInt]

instance : Faithful n Int32 where
  returns a := by
    have low := Int32.le_toInt a
    have high := Int32.toInt_lt a
    refine ⟨.int n _ (by omega) (by omega), ?_⟩
    change (intIn _ _ (.int a.toInt)).map Int32.ofInt = some a
    rw [intIn_int (by omega) (by omega), Option.map_some, Int32.ofInt_toInt]

instance : Faithful n UInt8 where
  returns a := by
    have high := a.toNat_lt
    refine ⟨.int n _ (by omega) (by omega), ?_⟩
    change (intIn _ _ (.int a.toNat)).map (fun n => UInt8.ofNat n.toNat) = some a
    rw [intIn_int (by omega) (by omega), Option.map_some, Int.toNat_natCast, UInt8.ofNat_toNat]

theorem mapM_self {f : α → Option α} {xs : List α} (same : ∀ a ∈ xs, f a = some a) :
    xs.mapM f = some xs := by
  induction xs with
  | nil => rfl
  | cons a xs ih => simp [same a (by simp), ih fun b member => same b (by simp [member])]

theorem Returns.list [Wire α] {xs : List α} (returns : ∀ a ∈ xs, Returns n a) :
    Returns (n + 1) xs where
  plain := .arr fun v member => by
    obtain ⟨a, there, rfl⟩ := List.mem_map.mp member
    exact (returns a there).plain
  back := by
    change (Json.itemsInOrder (xs.map encode)).mapM decode = some xs
    rw [Json.itemsInOrder_eq, List.mapM_map, List.mapM_map]
    exact mapM_self fun a member => (returns a member).back

instance [Wire α] [Faithful n α] : Faithful (n + 1) (List α) :=
  ⟨fun _ => .list fun a _ => Faithful.returns a⟩

instance [Wire α] : NeverNull (List α) := ⟨fun _ => nofun⟩

theorem inOrder_ne_null {v : Json} (other : v ≠ .null) : v.inOrder ≠ .null := by
  cases v <;> simp_all [inOrder, Json.ofMembers]

/-- The absent value is the only one written as `null`. -/
instance [Wire α] [Faithful n α] [NeverNull α] : Faithful n (Option α) where
  returns
    | none => ⟨.null n, rfl⟩
    | some a => by
      obtain ⟨plain, back⟩ := Faithful.returns (n := n) a
      refine ⟨plain, ?_⟩
      change (match (encode a).inOrder with
        | .null => some none
        | v => (decode v).map some) = some (some a)
      split
      · next null => exact absurd null (inOrder_ne_null (NeverNull.ne_null a))
      · rw [back, Option.map_some]

theorem Returns.map [Wire α] [Faithful n α] {xs : List (String × α)}
    (ascending : xs.Pairwise fun a b => a.1 < b.1) : Returns (n + 1) xs where
  plain := by
    refine .obj ?_ fun m member => ?_
    · rw [List.map_map]
      exact List.pairwise_map.mpr (ascending.imp fun less => ne_of_lt less)
    · obtain ⟨x, -, rfl⟩ := List.mem_map.mp member
      exact (Faithful.returns x.2).plain
  back := by
    have order : (Json.membersInOrder (xs.map fun x => (x.1, encode x.2))).Pairwise
        fun a b => a.1 < b.1 := by
      rw [Json.membersInOrder_eq, List.map_map]
      exact List.pairwise_map.mpr ascending
    change decode (Json.ofMembers (Json.membersInOrder _)) = some xs
    rw [Json.ofMembers_ascending order, Json.membersInOrder_eq]
    change (List.map _ (xs.map _)).mapM _ = some xs
    rw [List.mapM_map, List.mapM_map]
    refine mapM_self fun x _ => ?_
    simp [(Faithful.returns (n := n) x.2).back]

theorem ofTag?_tag [Named α] (nodup : ((Named.all (α := α)).map Named.tag).Nodup) {a : α}
    (listed : a ∈ Named.all) : Named.ofTag? α (Named.tag a) = some a := by
  obtain ⟨found, first, same⟩ : ∃ b, Named.ofTag? α (Named.tag a) = some b ∧ b ∈ Named.all ∧
      Named.tag b = Named.tag a := by
    cases search : Named.ofTag? α (Named.tag a) with
    | none => simpa using List.find?_eq_none.mp search a listed
    | some b => exact ⟨b, rfl, List.mem_of_find?_eq_some search, by
        simpa using List.find?_some search⟩
  rw [first, List.inj_on_of_nodup_map nodup same.1 listed same.2]

theorem Returns.timestamp {t : Timestamp} (regular : t.Regular) : Returns n t :=
  ⟨.str n _, Timestamp.ofText?_text regular⟩

end Wire

/-! ## Records -/

/-- The first of the members of `a` are read back as `b` makes it of them: they have the given
names, and every one returns. -/
structure Layout.Reads {α β : Type} (l : Layout α β) (n : Nat) (a : α) (names : List String)
    (b : β) : Prop where
  names_eq : (l.write a).map Prod.fst = names
  plain : ∀ m ∈ l.write a, Distinct n m.2
  back : ∀ ms : List (String × Json), (∀ m ∈ l.write a, ms.lookup m.1 = some m.2.inOrder) →
    l.read (.named ms) = some b

structure ReadsTagged {δ : Type} (tagName : String) (n : Nat) (members : List (String × Json))
    (read : Json → Option δ) (d : δ) : Prop where
  nodup : (tagName :: members.map Prod.fst).Nodup
  plain : ∀ m ∈ members, Distinct n m.2
  back : ∀ ms : List (String × Json), (∀ m ∈ members, ms.lookup m.1 = some m.2.inOrder) →
    read (.obj ms) = some d

namespace Layout.Reads

variable {α β γ : Type} {n : Nat} {a : α} {names : List String}

theorem make {mk : β} : (Layout.make α mk).Reads n a [] mk :=
  ⟨rfl, fun _ there => (List.not_mem_nil there).elim, fun _ _ => rfl⟩

theorem member [Wire γ] {l : Layout α (γ → β)} {f : γ → β} {name : String} {get : α → γ}
    {missing : Members → Option γ} (reads : l.Reads n a names f)
    (returns : Wire.Returns n (get a)) :
    (l.member name get missing).Reads n a (names ++ [name]) (f (get a)) where
  names_eq := by simp [Layout.member, reads.names_eq]
  plain m there := by
    obtain before | last := List.mem_append.mp there
    · exact reads.plain m before
    · rw [List.mem_singleton.mp last]
      exact returns.plain
  back ms found := by
    have before := reads.back ms fun m there => found m (List.mem_append_left _ there)
    have last : (Members.named ms).find? l.arity name = some (Wire.encode (get a)).inOrder :=
      found (name, Wire.encode (get a)) (by simp [Layout.member])
    simp only [Layout.member, before, last, returns.back, Option.bind_eq_bind, Option.bind_some,
      Option.map_some]

theorem field [Wire γ] [Wire.Faithful n γ] {l : Layout α (γ → β)} {f : γ → β} {name : String}
    {get : α → γ} {missing : Members → Option γ} (reads : l.Reads n a names f) :
    (l.member name get missing).Reads n a (names ++ [name]) (f (get a)) :=
  reads.member (Wire.Faithful.returns _)

theorem returns {l : Layout α α} {b : α} (reads : l.Reads n a names b) (nodup : names.Nodup)
    (same : b = a) : @Wire.Returns α l.toWire (n + 1) a := by
  have nodup : ((l.write a).map Prod.fst).Nodup := reads.names_eq ▸ nodup
  obtain ⟨ms, sorted, look⟩ := Json.inOrder_obj nodup
  have found : ∀ m ∈ l.write a, ms.lookup m.1 = some m.2.inOrder := fun m there => by
    rw [look, Json.lookup_of_mem nodup there, Option.map_some]
  have back : l.decode (l.encode a).inOrder = some a := by
    rw [Layout.encode, sorted, ← same]
    exact reads.back ms found
  exact @Wire.Returns.mk α l.toWire (n + 1) a (.obj nodup reads.plain) back

end Layout.Reads

namespace ReadsTagged

variable {δ : Type} {tagName : String} {n : Nat} {members : List (String × Json)}
  {read : Json → Option δ} {d : δ}

/-- The members of a layout, as the reader of tagged records takes them up. -/
theorem of_reads {α : Type} {l : Layout α α} {a b : α} {names : List String}
    (reads : l.Reads n a names b) (nodup : (tagName :: names).Nodup) (same : b = a)
    {mk : α → δ} :
    ReadsTagged tagName n (l.write a) (fun v => (l.decode v).map mk) (mk a) where
  nodup := reads.names_eq ▸ nodup
  plain := reads.plain
  back ms found := by
    change ((l.read (.named ms)).map mk) = some (mk a)
    rw [reads.back ms found, Option.map_some, same]

theorem plain_withTag (reads : ReadsTagged tagName n members read d) (tag : String) :
    Distinct (n + 1) (Json.withTag tagName tag members) := by
  refine .obj reads.nodup fun m member => ?_
  obtain rfl | rest := List.mem_cons.mp member
  · exact .str n tag
  · exact reads.plain m rest

theorem tagged?_withTag (reads : ReadsTagged tagName n members read d) (tag : String) :
    ∃ record, (Json.withTag tagName tag members).inOrder.tagged? tagName = some (tag, record) ∧
      read record = some d := by
  have nodup : (((tagName, Json.str tag) :: members).map Prod.fst).Nodup := reads.nodup
  obtain ⟨ms, sorted, look⟩ := Json.inOrder_obj nodup
  have found := look tagName
  rw [Json.lookup_cons_eq, if_pos rfl] at found
  refine ⟨.obj (ms.filter fun m => m.1 ≠ tagName), ?_, reads.back _ fun m member => ?_⟩
  · rw [Json.withTag, sorted, Json.tagged?, found]
    rfl
  · have other : m.1 ≠ tagName := fun same =>
      (List.nodup_cons.mp reads.nodup).1 (List.mem_map.mpr ⟨m, member, same⟩)
    rw [Json.lookup_filter_ne other, look,
      Json.lookup_of_mem nodup (List.mem_cons_of_mem _ member), Option.map_some]

end ReadsTagged

end WorkflowReplay
