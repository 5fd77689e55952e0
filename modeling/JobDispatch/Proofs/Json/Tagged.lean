import JobDispatch.Proofs.Json.Decoder
set_option autoImplicit false

namespace JobDispatch.Json

namespace Value

/-- A text, a truth value or `null`. -/
def IsPlain : Value → Prop
  | .null => True
  | .bool _ => True
  | .string content => content.isSome = true
  | _ => False

theorem IsPlain.isWhole {value : Value} (plain : value.IsPlain) : value.isWhole = true := by
  cases value with
  | null => rfl
  | bool flag => rfl
  | string content => rfl
  | _ => exact absurd plain id

theorem IsPlain.isReadable {value : Value} (plain : value.IsPlain) (depth : Nat) :
    value.isReadable depth = true := by
  cases value with
  | null => cases depth <;> rfl
  | bool flag => cases depth <;> rfl
  | string content => cases depth <;> exact plain
  | _ => exact absurd plain id

/-- A text, or a natural number of 32 bits. -/
inductive IsLeaf : Value → Prop where
  | text (content : String) : IsLeaf (text content)
  | nat (word : UInt32) : IsLeaf (nat word.toNat)

theorem IsLeaf.isReadable {value : Value} (leaf : value.IsLeaf) (depth : Nat) :
    value.isReadable depth = true := by
  cases leaf with
  | text content => cases depth <;> rfl
  | nat word =>
    have small := word.toNat_lt
    cases depth <;> exact Number.isReadable_ofNat word.toNat (by omega)

/-- An object is nested one level deeper than its members. -/
theorem isReadable_record {members : List (String × Value)} {depth : Nat}
    (each : ∀ member ∈ members, member.2.isReadable depth = true) :
    (record members).isReadable (depth + 1) = true := by
  show areReadableMembers depth _ = true
  induction members with
  | nil => rfl
  | cons member members ih =>
    rw [List.forall_mem_cons] at each
    have name := (IsLeaf.text member.1).isReadable depth
    simp only [List.map_cons, areReadableMembers, name, each.1, ih each.2, Bool.and_true]
    rfl

end Value

namespace RecordDecoder

variable {α : Type} {tag : String} {cases : List (String × RecordDecoder α)}

/-- The first member is the tag with the name of one of the cases, and the record of that case is
read from the others. No value is nested. -/
structure ReadsTagged (tag : String) (cases : List (String × RecordDecoder α))
    (members : List (String × Value)) (a : α) : Prop where
  distinct : (members.map Prod.fst).Nodup
  leaves : ∀ member ∈ members, member.2.IsLeaf
  reads : ∃ name record others, members = (tag, .text name) :: others
    ∧ cases.lookup name = some record ∧ record.Reads others a

/-- The members of an object that have the tag for their key, and the others. -/
theorem filter_isNamed (tag : String) (members : List (String × Value)) :
    ((members.map fun (key, value) => (Value.text key, value)).filter fun (key, _) =>
        isNamed tag key) =
      ((members.filter fun member => member.1 == tag).map fun (key, value) => (.text key, value))
    ∧ ((members.map fun (key, value) => (Value.text key, value)).filter fun (key, _) =>
        !isNamed tag key) =
      ((members.filter fun member => !member.1 == tag).map fun (key, value) =>
        (.text key, value)) := by
  constructor <;> exact List.filter_map

/-- The members of a tagged value may stand in any order, and plain unknown ones among them. -/
theorem ReadsTagged.decode_shuffled {members extras shuffled : List (String × Value)} {a : α}
    (read : ReadsTagged tag cases members a)
    (unknown : ∀ extra ∈ extras, extra.1 ∉ members.map Prod.fst ∧ extra.2.IsPlain)
    (order : shuffled.Perm (members ++ extras)) :
    tagged tag cases (.record shuffled) = .ok a := by
  obtain ⟨distinct, leaves, name, record, others, equal, found, fields⟩ := read
  subst equal
  rw [List.map_cons, List.nodup_cons] at distinct
  have readable : (Value.record shuffled).isReadable 127 = true := by
    apply Value.isReadable_record
    intro member inside
    rcases List.mem_append.1 (order.mem_iff.1 inside) with known | extra
    · exact (leaves member known).isReadable 126
    · exact (unknown member extra).2.isReadable 126
  have untagged : ∀ member ∈ others ++ extras, (member.1 == tag) = false := by
    intro member inside
    rw [beq_eq_false_iff_ne]
    intro same
    rcases List.mem_append.1 inside with known | extra
    · exact distinct.1 (List.mem_map.2 ⟨member, known, same⟩)
    · exact (unknown member extra).1 (by simp [same])
  -- The tag is found once wherever it stands, and what is left are the fields of its case.
  have tags : (shuffled.filter fun member => member.1 == tag) = [(tag, .text name)] := by
    rw [← List.perm_singleton]
    refine (order.filter _).trans ?_
    rw [List.cons_append, List.filter_cons_of_pos (by simp), List.filter_eq_nil_iff.2 fun member
      inside => by simp [untagged member inside]]
  have rest : (shuffled.filter fun member => !member.1 == tag).Perm (others ++ extras) := by
    refine (order.filter _).trans ?_
    rw [List.cons_append, List.filter_cons_of_neg (by simp), List.filter_eq_self.2 fun member
      inside => by simp [untagged member inside]]
  have unread : ∀ extra ∈ extras, extra.1 ∉ others.map Prod.fst ∧ extra.2.isWhole = true := by
    intro extra inside
    obtain ⟨new, plain⟩ := unknown extra inside
    exact ⟨fun same => new (List.mem_cons_of_mem _ same), plain.isWhole⟩
  have apart : (record.rules.map FieldRule.name).Nodup := by
    rw [fields.names]
    exact distinct.2
  have decoded := RecordDecoder.decode_shuffled apart fields unread rest
  obtain ⟨tagMembers, otherMembers⟩ := filter_isNamed tag shuffled
  rw [tags] at tagMembers
  simp only [Value.record] at readable decoded
  simp only [tagged, Value.record, readable, if_true, tagMembers, otherMembers,
    List.map_cons, List.map_nil, Decode.text_text, Decode.named, found, bind, Except.bind, decoded]

end RecordDecoder

end JobDispatch.Json
