import JobDispatch.Json.Decoder
import JobDispatch.Proofs.Except
import JobDispatch.Proofs.Json.Number
import JobDispatch.Proofs.Time.Timestamp
import JobDispatch.Proofs.Uuid
set_option autoImplicit false

namespace JobDispatch.Json

open Text

namespace Decode

theorem text_text (content : String) : text (.text content) = .ok content := rfl

theorem parsed_text {α : Type} {parse : String → Option α} {content : String} {a : α}
    (found : parse content = some a) : parsed parse (.text content) = .ok a := by
  have read := text_text content
  simp only [parsed, read, bind, Except.bind, found]

theorem uuid_text (id : Uuid) : uuid (.text id.text) = .ok id :=
  parsed_text (Uuid.ofText?_text id)

theorem instant_text (time : Time.Instant) : instant (.text time.text) = .ok time :=
  parsed_text (Time.Instant.ofText?_text time)

/-- A finite number is read back to the bit. -/
theorem float_float (number : Binary64) (finite : number.isFinite = true) :
    float (.float number) = .ok number := by
  have readable := Number.isReadable_ofBinary64 number finite
  have value := Number.toBinary64_ofBinary64 number finite
  rw [Value.float, if_pos finite]
  simp only [float, readable, if_true, value]

/-- What is read as a number of the 64-bit format is finite. -/
theorem isFinite_of_float {value : Value} {number : Binary64}
    (read : float value = .ok number) : number.isFinite = true := by
  unfold float at read
  split at read
  · split at read
    · rename_i readable
      cases read
      exact readable
    · cases read
  · cases read

theorem natBelow_nat (bound n : Nat) (small : n < bound) (word : bound ≤ 2 ^ 64) :
    natBelow bound (.nat n) = .ok n := by
  have readable := Number.isReadable_ofNat n (by omega)
  simp only [natBelow, Value.nat, readable, if_true, Number.toNat?_ofNat, small]

theorem lt_of_natBelow {bound n : Nat} {value : Value} (read : natBelow bound value = .ok n) :
    n < bound := by
  unfold natBelow at read
  split at read
  · split at read
    · split at read
      · split at read
        · rename_i small
          cases read
          exact small
        · cases read
      · cases read
    · cases read
  · cases read

theorem count_nat {n : Nat} (small : n < UInt64.size) : count (.nat n) = .ok n :=
  natBelow_nat UInt64.size n small (by decide)

theorem word32_nat (word : UInt32) : word32 (.nat word.toNat) = .ok word := by
  have read := natBelow_nat (2 ^ 32) word.toNat word.toNat_lt (by decide)
  simp [word32, read, bind, Except.bind, pure, Except.pure]

/-- The decoder takes nothing but `null` for an absent value. -/
theorem nullable_orNull {α : Type} {encode : α → Value} {decode : Decoder α}
    {present : Option α} (solid : ∀ a ∈ present, encode a ≠ .null)
    (read : ∀ a ∈ present, decode (encode a) = .ok a) :
    nullable decode (.orNull encode present) = .ok present := by
  cases present with
  | none => rfl
  | some a =>
    have taken := read a rfl
    have kind := solid a rfl
    simp only [Value.orNull]
    unfold nullable
    split
    · rename_i equal
      exact absurd equal kind
    · rw [taken]
      rfl

/-- A name that no earlier item has stands for its item. -/
theorem choice_name {α : Type} {cases : List (String × α)} {name : String} {a : α}
    (found : cases.lookup name = some a) : choice cases (.text name) = .ok a := by
  simp only [choice, Value.text, named, found]

/-- The members of an object are read one by one when every key and every value is. -/
theorem members_record {κ α : Type} (key? : String → Option κ) (decode : Decoder α)
    (keyText : κ → String) (encode : α → Value) (entries : List (κ × α))
    (keyRead : ∀ entry ∈ entries, key? (keyText entry.1) = some entry.1)
    (read : ∀ entry ∈ entries, decode (encode entry.2) = .ok entry.2) :
    members key? decode (.record (entries.map fun entry => (keyText entry.1, encode entry.2))) =
      .ok entries := by
  simp only [members, Value.record, List.map_map]
  induction entries with
  | nil => rfl
  | cons entry entries ih =>
    have firstKey := keyRead entry (by simp)
    have firstRead := read entry (by simp)
    have others := ih (fun other member => keyRead other (by simp [member]))
      (fun other member => read other (by simp [member]))
    rw [List.map_cons, List.mapM_cons, others]
    simp only [Function.comp, Value.text, firstKey, firstRead, bind, Except.bind, pure, Except.pure]

/-- Every decoded member has what its decoder promises. -/
theorem members_forall {κ α : Type} {key? : String → Option κ} {decode : Decoder α}
    (property : α → Prop) (decoded : ∀ value a, decode value = .ok a → property a) {value : Value}
    {entries : List (κ × α)} (read : members key? decode value = .ok entries) :
    ∀ entry ∈ entries, property entry.2 := by
  cases value with
  | object list =>
    simp only [members] at read
    induction list generalizing entries with
    | nil =>
      cases read
      simp
    | cons member list ih =>
      rw [List.mapM_cons] at read
      obtain ⟨entry, first, read⟩ := bind_eq_ok.1 read
      obtain ⟨others, later, read⟩ := bind_eq_ok.1 read
      cases read
      intro found inside
      rcases List.mem_cons.1 inside with here | there
      · subst here
        split at first
        · split at first
          · obtain ⟨a, taken, equal⟩ := bind_eq_ok.1 first
            cases equal
            exact decoded _ a taken
          · cases first
        · cases first
      · exact ih later found there
  | _ => cases read

theorem nullable_forall {α : Type} {decode : Decoder α} {property : α → Prop}
    (decoded : ∀ value a, decode value = .ok a → property a) (value : Value) (present : Option α)
    (read : nullable decode value = .ok present) : ∀ a ∈ present, property a := by
  unfold nullable at read
  split at read
  · cases read
    simp
  · obtain ⟨a, decoded', equal⟩ := map_eq_ok.1 read
    subst equal
    intro b inside
    cases inside
    exact decoded _ _ decoded'

theorem nullable_eq_none {α : Type} {decode : Decoder α} {value : Value} {present : Option α}
    (read : nullable decode value = .ok present) : present = none ↔ value = .null := by
  unfold nullable at read
  split at read
  · cases read
    simp
  · rename_i other
    obtain ⟨a, _, equal⟩ := map_eq_ok.1 read
    subst equal
    simpa using other

def list {α : Type} (decode : Decoder α) : Decoder (List α)
  | .array items => items.mapM decode
  | value => .error value.fault

theorem list_array {α : Type} {decode : Decoder α} {encode : α → Value} {items : List α}
    (read : ∀ item ∈ items, decode (encode item) = .ok item) :
    list decode (.array (items.map encode)) = .ok items := by
  simp only [list]
  induction items with
  | nil => rfl
  | cons item items ih =>
    rw [List.forall_mem_cons] at read
    rw [List.map_cons, List.mapM_cons, read.1, ih read.2]
    rfl

end Decode

/-- What an object or an array holds for a field: the first member of that name, or the item in that
place. -/
def Value.field? (name : String) (place : Nat) : Value → Option Value
  | .object members =>
    (members.find? fun member => RecordDecoder.isNamed name member.1).map Prod.snd
  | .array items => items[place]?
  | _ => none

namespace RecordDecoder

variable {α β : Type}

/-- The members are the fields of the record decoder in their order, each passes the test of its
field, and the record is built from them. -/
structure Reads (record : RecordDecoder α) (members : List (String × Value)) (a : α) : Prop where
  fields : List.Forall₂ (fun rule member => rule.name = member.1 ∧ rule.check member.2 = .ok ())
    record.rules members
  builds : ∀ found : Fields, (∀ member ∈ members,
    found.members.lookup member.1 = some member.2) → record.build found = .ok a

/-- The members have the names of the rules. -/
theorem Reads.names {record : RecordDecoder α} {members : List (String × Value)} {a : α}
    (read : record.Reads members a) :
    record.rules.map FieldRule.name = members.map Prod.fst := by
  have fields := read.fields
  clear read
  generalize record.rules = rules at fields
  induction fields with
  | nil => rfl
  | cons first _ ih => rw [List.map_cons, List.map_cons, first.1, ih]

/-- A member passes the test of the rule that has its name. -/
theorem Reads.check_eq_ok {record : RecordDecoder α} {members : List (String × Value)} {a : α}
    (read : record.Reads members a) (distinct : (record.rules.map FieldRule.name).Nodup)
    {member : String × Value} (inside : member ∈ members) {rule : FieldRule}
    (ruled : rule ∈ record.rules) (named : rule.name = member.1) :
    rule.check member.2 = .ok () := by
  obtain ⟨other, listed, same, passed⟩ : ∃ other ∈ record.rules,
      other.name = member.1 ∧ other.check member.2 = .ok () := by
    have fields := read.fields
    clear read distinct ruled
    generalize record.rules = rules at fields
    induction fields with
    | nil => cases inside
    | @cons first _ _ _ fits _ ih =>
      rcases List.mem_cons.1 inside with here | later
      · subst here
        exact ⟨first, List.mem_cons_self, fits⟩
      · obtain ⟨other, listed, fits⟩ := ih later
        exact ⟨other, List.mem_cons_of_mem _ listed, fits⟩
  have equal : rule = other := List.inj_on_of_nodup_map distinct ruled listed
    (named.trans same.symm)
  rw [equal]
  exact passed

theorem reads_pure (a : α) : Reads (pure a) [] a := ⟨.nil, fun _ _ => rfl⟩

theorem Reads.seq {f : RecordDecoder (α → β)} {x : RecordDecoder α} {g : α → β} {a : α}
    {first second : List (String × Value)} (left : f.Reads first g) (right : x.Reads second a) :
    Reads (f <*> x) (first ++ second) (g a) where
  fields := List.rel_append left.fields right.fields
  builds := by
    intro found known
    have function := left.builds found fun member inside => known member (by simp [inside])
    have argument := right.builds found fun member inside => known member (by simp [inside])
    show (do let g ← f.build found; let a ← x.build found; return g a) = .ok (g a)
    simp [function, argument, bind, Except.bind, pure, Except.pure]

theorem Reads.map {x : RecordDecoder α} {a : α} {members : List (String × Value)} (g : α → β)
    (read : x.Reads members a) : Reads (g <$> x) members (g a) :=
  (reads_pure g).seq read

theorem reads_field {name : String} {decode : Decoder α} {absent : Bool → Except Fault α}
    {value : Value} {a : α} (read : decode value = .ok a) :
    Reads (field name decode absent) [(name, value)] a where
  fields := .cons ⟨rfl, by simp [read, Except.map]⟩ .nil
  builds := by
    intro found known
    have here := known (name, value) (by simp)
    simp only [field, here, read]

theorem lookup_member {members : List (String × Value)} {name : String} {value : Value}
    (distinct : (members.map Prod.fst).Nodup) (member : (name, value) ∈ members) :
    members.lookup name = some value := by
  induction members with
  | nil => simp at member
  | cons first members ih =>
    obtain ⟨key, content⟩ := first
    rw [List.map_cons, List.nodup_cons] at distinct
    rcases List.mem_cons.1 member with same | later
    · cases same
      exact List.lookup_cons_self
    · have other : name ≠ key := fun equal =>
        distinct.1 (List.mem_map.2 ⟨(name, value), later, equal⟩)
      rw [List.lookup_cons, beq_false_of_ne other]
      exact ih distinct.2 later

/-- The members that have a rule are gathered in the order in which they stand, if each of them
passes the test and none stands twice. The others need only be whole. -/
theorem gather_eq_filter {rules : List FieldRule} {members : List (String × Value)}
    {seen : List String}
    (checked : ∀ member ∈ members, ∀ rule ∈ rules, rule.name = member.1 →
      rule.check member.2 = .ok ())
    (whole : ∀ member ∈ members, member.1 ∉ rules.map FieldRule.name → member.2.isWhole = true)
    (apart : ((members.filter fun member => member.1 ∈ rules.map FieldRule.name).map
      Prod.fst).Nodup)
    (unseen : ∀ member ∈ members, member.1 ∈ rules.map FieldRule.name → member.1 ∉ seen) :
    gather rules seen (members.map fun (key, value) => (.text key, value)) =
      .ok (members.filter fun member => member.1 ∈ rules.map FieldRule.name) := by
  induction members generalizing seen with
  | nil => rfl
  | cons member members ih =>
    obtain ⟨name, value⟩ := member
    rw [List.forall_mem_cons] at checked whole unseen
    by_cases known : name ∈ rules.map FieldRule.name
    · rw [List.filter_cons_of_pos (by simpa using known), List.map_cons, List.nodup_cons] at apart
      have later := @ih (name :: seen) checked.2 whole.2 apart.2 (by
        intro other inside ruled repeated
        rcases List.mem_cons.1 repeated with same | old
        · exact apart.1 (List.mem_map.2
            ⟨other, List.mem_filter.2 ⟨inside, decide_eq_true ruled⟩, same⟩)
        · exact unseen.2 other inside ruled old)
      obtain ⟨rule, found⟩ : ∃ rule, rules.find? (fun rule => rule.name == name) = some rule := by
        obtain ⟨rule, inside, named⟩ := List.mem_map.1 known
        exact Option.isSome_iff_exists.1 (List.find?_isSome.2 ⟨rule, inside, by simp [named]⟩)
      have passed := checked.1 rule (List.mem_of_find?_eq_some found)
        (by simpa using List.find?_some found)
      have new : seen.contains name = false := by
        simpa using unseen.1 known
      rw [List.filter_cons_of_pos (by simpa using known)]
      simp only [List.map_cons, gather, Value.text, found, new, passed, bind, Except.bind, pure,
        Except.pure]
      simp only [Value.text] at later
      rw [later]
      rfl
    · rw [List.filter_cons_of_neg (by simpa using known)] at apart ⊢
      have missing : rules.find? (fun rule => rule.name == name) = none := by
        rw [List.find?_eq_none]
        intro rule inside named
        exact known (List.mem_map.2 ⟨rule, inside, by simpa using named⟩)
      have later := @ih seen checked.2 whole.2 apart unseen.2
      simp only [List.map_cons, gather, Value.text, missing, whole.1 known, if_true]
      exact later

/-- The fields of an object may stand in any order, and unknown ones among them. -/
theorem decode_shuffled {record : RecordDecoder α} {members extras shuffled : List (String × Value)}
    {a : α} (distinct : (record.rules.map FieldRule.name).Nodup) (read : record.Reads members a)
    (unknown : ∀ extra ∈ extras, extra.1 ∉ members.map Prod.fst ∧ extra.2.isWhole = true)
    (order : shuffled.Perm (members ++ extras)) : record.decode (.record shuffled) = .ok a := by
  have names := read.names
  have known : ∀ member ∈ members, member.1 ∈ members.map Prod.fst :=
    fun member inside => List.mem_map_of_mem inside
  have gathered : (shuffled.filter fun member =>
      member.1 ∈ record.rules.map FieldRule.name).Perm members := by
    refine (order.filter _).trans ?_
    rw [names, List.filter_append, List.filter_eq_self.2 fun member inside =>
      decide_eq_true (known member inside), List.filter_eq_nil_iff.2 fun extra inside => by
        simpa using (unknown extra inside).1, List.append_nil]
  have apart : ((shuffled.filter fun member =>
      member.1 ∈ record.rules.map FieldRule.name).map Prod.fst).Nodup := by
    rw [(gathered.map Prod.fst).nodup_iff, ← names]
    exact distinct
  have checked : ∀ member ∈ shuffled, ∀ rule ∈ record.rules, rule.name = member.1 →
      rule.check member.2 = .ok () := by
    intro member inside rule ruled named
    rcases List.mem_append.1 (order.mem_iff.1 inside) with here | other
    · exact read.check_eq_ok distinct here ruled named
    · refine absurd ?_ (unknown member other).1
      rw [← names, ← named]
      exact List.mem_map_of_mem ruled
  have whole : ∀ member ∈ shuffled, member.1 ∉ record.rules.map FieldRule.name →
      member.2.isWhole = true := by
    intro member inside absent
    rcases List.mem_append.1 (order.mem_iff.1 inside) with here | other
    · rw [names] at absent
      exact absurd (known member here) absent
    · exact (unknown member other).2
  have all := gather_eq_filter checked whole apart fun _ _ _ => List.not_mem_nil
  have built := read.builds ⟨_, false⟩ fun member inside =>
    lookup_member apart (gathered.mem_iff.2 inside)
  simp only [decode, Value.record, all, bind, Except.bind, built]

/-- A record written as an object is decoded to what it was. -/
theorem decode_record {record : RecordDecoder α} {members : List (String × Value)} {a : α}
    (distinct : (record.rules.map FieldRule.name).Nodup) (read : record.Reads members a) :
    record.decode (.record members) = .ok a := by
  have order : members.Perm (members ++ []) := by rw [List.append_nil]
  exact decode_shuffled distinct read (by simp) order

/-- Whatever record is built, it has the property. -/
def Gives (record : RecordDecoder α) (property : α → Prop) : Prop :=
  ∀ found a, record.build found = .ok a → property a

theorem gives_pure {a : α} {property : α → Prop} (holds : property a) :
    Gives (pure a) property := by
  intro found b built
  cases built
  exact holds

theorem Gives.seq {f : RecordDecoder (α → β)} {x : RecordDecoder α} {known : α → Prop}
    {property : β → Prop} (left : f.Gives fun g => ∀ a, known a → property (g a))
    (right : x.Gives known) : Gives (f <*> x) property := by
  intro found b built
  change (f.build found >>= fun g => x.build found >>= fun a => .ok (g a)) = .ok b at built
  obtain ⟨g, function, rest⟩ := bind_eq_ok.1 built
  obtain ⟨a, argument, equal⟩ := bind_eq_ok.1 rest
  cases equal
  exact left found g function a (right found a argument)

/-- The last field does not bear on the property. -/
theorem Gives.step {f : RecordDecoder (α → β)} {x : RecordDecoder α} {property : β → Prop}
    (left : f.Gives fun g => ∀ a, property (g a)) : Gives (f <*> x) property := by
  have right : x.Gives fun _ => True := fun _ _ _ => trivial
  exact Gives.seq (fun found g built a _ => left found g built a) right

theorem Gives.map {x : RecordDecoder α} {g : α → β} {property : β → Prop}
    (holds : ∀ a, property (g a)) : Gives (g <$> x) property :=
  Gives.step (gives_pure holds)

theorem gives_field {name : String} {decode : Decoder α} {absent : Bool → Except Fault α}
    {property : α → Prop} (decoded : ∀ value a, decode value = .ok a → property a)
    (stand : ∀ positional a, absent positional = .ok a → property a) :
    Gives (field name decode absent) property := by
  intro found a built
  simp only [field] at built
  split at built
  · exact decoded _ a built
  · exact stand _ a built

theorem gives_required {name : String} {decode : Decoder α} {property : α → Prop}
    (decoded : ∀ value a, decode value = .ok a → property a) :
    Gives (required name decode) property :=
  gives_field decoded fun _ _ absurdly => by cases absurdly

theorem Gives.decode {record : RecordDecoder α} {property : α → Prop} {value : Value} {a : α}
    (gives : record.Gives property) (decoded : record.decode value = .ok a) : property a := by
  cases value with
  | object members =>
    obtain ⟨_, _, built⟩ := bind_eq_ok.1 decoded
    exact gives _ a built
  | array items =>
    obtain ⟨_, _, built⟩ := bind_eq_ok.1 decoded
    exact gives _ a built
  | _ => cases decoded

theorem field?_cons_self (name : String) (place : Nat) (value : Value)
    (members : List (Value × Value)) :
    (Value.object ((.string (some name), value) :: members)).field? name place = some value := by
  simp [Value.field?, isNamed]

theorem field?_cons_of_ne {name other : String} (ne : other ≠ name) (place : Nat) (value : Value)
    (members : List (Value × Value)) :
    (Value.object ((.string (some other), value) :: members)).field? name place =
      (Value.object members).field? name place := by
  simp [Value.field?, isNamed, ne]

/-- A known field is gathered from its member. -/
theorem lookup_gather {rules : List FieldRule} {rule : FieldRule} (known : rule ∈ rules)
    {seen : List String} {members : List (Value × Value)} {found : List (String × Value)}
    (gathered : gather rules seen members = .ok found) (place : Nat) :
    found.lookup rule.name = (Value.object members).field? rule.name place := by
  induction members generalizing seen found with
  | nil =>
    cases gathered
    rfl
  | cons member members ih =>
    obtain ⟨key, value⟩ := member
    simp only [gather] at gathered
    split at gathered
    · rename_i name
      split at gathered
      · split at gathered
        · cases gathered
        · obtain ⟨_, _, rest⟩ := bind_eq_ok.1 gathered
          obtain ⟨others, later, equal⟩ := bind_eq_ok.1 rest
          cases equal
          by_cases same : name = rule.name
          · subst same
            rw [List.lookup_cons_self, field?_cons_self]
          · rw [List.lookup_cons, beq_false_of_ne (Ne.symm same), field?_cons_of_ne same]
            exact ih later
      · rename_i unknown
        have other : name ≠ rule.name := fun same =>
          List.find?_eq_none.1 unknown rule known (beq_iff_eq.2 same.symm)
        split at gathered
        · rw [field?_cons_of_ne other]
          exact ih gathered
        · cases gathered
    · cases gathered

/-- A field of an array is the item in its place. -/
theorem lookup_align {rules : List FieldRule} (distinct : (rules.map FieldRule.name).Nodup)
    {place : Nat} {rule : FieldRule} (here : rules[place]? = some rule) {items : List Value}
    {found : List (String × Value)} (aligned : align rules items = .ok found) :
    found.lookup rule.name = items[place]? := by
  induction items generalizing rules place found with
  | nil =>
    cases rules <;> cases aligned <;> rfl
  | cons item items ih =>
    cases rules with
    | nil => cases aligned
    | cons first rules =>
      obtain ⟨_, _, rest⟩ := bind_eq_ok.1 aligned
      obtain ⟨others, later, equal⟩ := bind_eq_ok.1 rest
      cases equal
      rw [List.map_cons, List.nodup_cons] at distinct
      cases place with
      | zero =>
        cases here
        exact List.lookup_cons_self
      | succ place =>
        have inside : rule ∈ rules := List.mem_of_getElem? here
        have other : rule.name ≠ first.name := fun same =>
          distinct.1 (by rw [← same]; exact List.mem_map_of_mem inside)
        rw [List.lookup_cons, beq_false_of_ne other]
        exact ih distinct.2 here later

/-- A record is built from what is held for each of its fields. -/
theorem build_of_decode {record : RecordDecoder α}
    (distinct : (record.rules.map FieldRule.name).Nodup) {value : Value} {a : α}
    (decoded : record.decode value = .ok a) :
    ∃ found, record.build found = .ok a ∧ ∀ (place : Nat) (rule : FieldRule),
      record.rules[place]? = some rule →
        found.members.lookup rule.name = value.field? rule.name place := by
  cases value with
  | object members =>
    obtain ⟨found, gathered, built⟩ := bind_eq_ok.1 decoded
    exact ⟨_, built, fun place _ here =>
      lookup_gather (List.mem_of_getElem? here) gathered place⟩
  | array items =>
    obtain ⟨found, aligned, built⟩ := bind_eq_ok.1 decoded
    exact ⟨_, built, fun _ _ here => lookup_align distinct here aligned⟩
  | _ => cases decoded

/-- An optional field is absent from what is built when it is missing or `null`. -/
theorem build_optional {name : String} {decode : Decoder α} {found : Fields} {present : Option α}
    (built : (optional name decode).build found = .ok present) :
    present = none ↔ ∀ held ∈ found.members.lookup name, held = .null := by
  simp only [optional, field] at built
  split at built
  · rename_i held here
    rw [here]
    simpa using Decode.nullable_eq_none built
  · rename_i missing
    split at built
    · cases built
    · cases built
      simp [missing]

end RecordDecoder

/-- What a text is decoded to is decoded from the value that it holds and nothing follows. -/
theorem decodeSymbols_eq_ok {α : Type} {decode : Decoder α} {source : Symbols} {a : α} :
    decodeSymbols decode source = .ok a ↔
      decode (Document.read source).value = .ok a ∧ (Document.read source).endsClean = true := by
  simp only [decodeSymbols, bind_eq_ok]
  constructor
  · rintro ⟨b, decoded, ends⟩
    split at ends
    · rename_i clean
      cases ends
      exact ⟨decoded, clean⟩
    · cases ends
  · rintro ⟨decoded, clean⟩
    exact ⟨a, decoded, by rw [if_pos clean]⟩

end JobDispatch.Json
