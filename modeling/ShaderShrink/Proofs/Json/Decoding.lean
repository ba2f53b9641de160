import ShaderShrink.Json.Decode
import ShaderShrink.Proofs.Except
import ShaderShrink.Proofs.Json.Reading

/-!
# Decoding what was encoded

`Json.Reads` relates a decoder, a JSON value and what the decoder makes of it, which it does unless
the value nests deeper than its source admits; then the value is refused as malformed. There is one
lemma for each way in which decoders are put together: lists, records with their fields, and tagged
values. For a text the limit is that of the whole text (`Json.Reads.decode_written`): a type whose
decoder reads what its encoder gives survives every layout of its text.
-/

namespace ShaderShrink.Json

mutual

/-- The draft of a value nests as deep as the value. -/
@[simp] theorem depth_draft : ∀ v : Json, v.draft.depth = v.depth
  | .null | .bool _ | .int _ | .str _ => rfl
  | .arr items => congrArg (· + 1) (depthItems_draftItems items)
  | .obj members => congrArg (· + 1) (depthMembers_draftMembers members)

/-- The drafts of some values nest as deep as the values. -/
theorem depthItems_draftItems : ∀ items, Draft.depthItems (draftItems items) = depthItems items
  | [] => rfl
  | v :: rest => congrArg₂ max (depth_draft v) (depthItems_draftItems rest)

/-- The drafts of some members nest as deep as the members. -/
theorem depthMembers_draftMembers :
    ∀ members, Draft.depthMembers (draftMembers members) = depthMembers members
  | [] => rfl
  | (_, v) :: rest => congrArg₂ max (depth_draft v) (depthMembers_draftMembers rest)

end

/-- The values of the members of an object that nests no deeper than `n + 1` nest no deeper
than `n`. -/
def DepthsLe (n : Nat) : List (String × Json) → Prop
  | [] => True
  | (_, v) :: rest => v.depth ≤ n ∧ DepthsLe n rest

/-- An object nests as deep as its deepest member, and one level more. -/
theorem depths_le {members : List (String × Json)} {n : Nat}
    (h : (obj members).depth ≤ n + 1) : DepthsLe n members := by
  induction members with
  | nil => trivial
  | cons member rest ih =>
    obtain ⟨hv, hrest⟩ := Nat.max_le.1 (Nat.le_of_succ_le_succ h)
    exact ⟨hv, ih (Nat.succ_le_succ hrest)⟩

/-- A result that is given where `p` holds, and refused as malformed elsewhere. -/
def within {α : Type} (p : Prop) [Decidable p] (a : α) : Except Failure α :=
  if p then .ok a else .error .malformed

/-- A value from the source may nest `depth` levels deep. -/
def Source.Admits : Source → Nat → Prop
  | .text room, depth => depth ≤ room
  | .whole, _ => True

instance (source : Source) (depth : Nat) : Decidable (source.Admits depth) :=
  match source with
  | .text _ => Nat.decLe ..
  | .whole => .isTrue trivial

section
variable {α β : Type} {source : Source} {d e : Nat} {p q : Prop} [Decidable p] [Decidable q]
  {a : α} {b : β}

/-- A result is given where its condition holds. -/
@[simp] theorem within_of_true (hp : p) : within p a = .ok a := if_pos hp

/-- Only whether the condition holds matters for what is given. -/
theorem within_congr (h : p ↔ q) : within p a = within q a := if_congr h rfl rfl

/-- Two results one after the other are given where both are. -/
theorem within_bind {f : α → Except Failure β} (hf : f a = within q b) :
    (within p a >>= f) = within (p ∧ q) b := by
  by_cases hp : p
  · rw [within_of_true hp, Except.ok_bind, hf]
    exact within_congr (iff_and_self.2 fun _ => hp)
  · rw [within, within, if_neg hp, if_neg (hp ·.1)]
    rfl

/-- What is made of a result is given under the condition of the result. -/
theorem within_bind_ok {f : α → Except Failure β} (hf : f a = .ok b) :
    (within p a >>= f) = within p b :=
  (within_bind (q := True) hf).trans (within_congr (iff_of_eq (and_true p)))

/-! ## Sources -/

/-- Every source admits a value without parts. -/
@[simp] theorem Source.admits_zero : source.Admits 0 := by
  cases source with
  | text room => exact Nat.zero_le room
  | whole => trivial

/-- Two values are admitted together where each of them is. -/
theorem Source.admits_max : source.Admits (max d e) ↔ source.Admits d ∧ source.Admits e := by
  cases source with
  | text room => exact Nat.max_le
  | whole => exact (and_self_iff).symm

/-- The parts of an array or object may nest one level less. -/
theorem Source.enter_bind {f : Source → Except Failure α}
    (hf : ∀ inner, f inner = within (inner.Admits d) a) :
    (source.enter >>= f) = within (source.Admits (d + 1)) a := by
  match source with
  | .text 0 => exact (if_neg (Nat.not_succ_le_zero d)).symm
  | .text (room + 1) =>
    rw [enter, Except.ok_bind, hf]
    exact within_congr Nat.succ_le_succ_iff.symm
  | .whole => exact hf .whole

/-- What comes one after the other is admitted where its deepest part is. -/
theorem Source.within_bind_max {f : α → Except Failure β}
    (hf : f a = within (source.Admits e) b) :
    (within (source.Admits d) a >>= f) = within (source.Admits (max d e)) b := by
  rw [within_bind hf]
  exact within_congr admits_max.symm

mutual

/-- A value is taken in whole unless it nests too deep. -/
theorem take_draft : ∀ (v : Json) (room : Nat),
    v.draft.take room = within ((Source.text room).Admits v.depth) ()
  | .null, _ | .bool _, _ | .int _, _ | .str _, _ => (if_pos (Nat.zero_le _)).symm
  | .arr _, 0 | .obj _, 0 => (if_neg (Nat.not_succ_le_zero _)).symm
  | .arr items, room + 1 => by
    rw [draft, Draft.take, takeItems_draftItems items room]
    exact (within_bind_ok rfl).trans (within_congr Nat.succ_le_succ_iff.symm)
  | .obj members, room + 1 => by
    rw [draft, Draft.take, takeMembers_draftMembers members room]
    exact (within_bind_ok rfl).trans (within_congr Nat.succ_le_succ_iff.symm)

/-- Values are taken in whole unless one of them nests too deep. -/
theorem takeItems_draftItems : ∀ (items : List Json) (room : Nat),
    Draft.takeItems room (draftItems items) =
      within ((Source.text room).Admits (depthItems items)) ()
  | [], _ => (if_pos (Nat.zero_le _)).symm
  | v :: rest, room => by
    rw [draftItems, Draft.takeItems, take_draft v room]
    exact Source.within_bind_max (takeItems_draftItems rest room)

/-- Members are taken in whole unless one of them nests too deep. -/
theorem takeMembers_draftMembers : ∀ (members : List (String × Json)) (room : Nat),
    Draft.takeMembers room (draftMembers members) =
      within ((Source.text room).Admits (depthMembers members)) ()
  | [], _ => (if_pos (Nat.zero_le _)).symm
  | (key, v) :: rest, room => by
    rw [draftMembers, Draft.takeMembers, take_draft v room]
    exact Source.within_bind_max (takeMembers_draftMembers rest room)

end

/-- What a source takes in whole is what it admits. -/
theorem Source.takeIn_draft (source : Source) (v : Json) :
    source.takeIn v.draft = within (source.Admits v.depth) () := by
  cases source with
  | text room => exact take_draft v room
  | whole => rfl

/-! ## Values -/

/-- The decoder reads `a` from the value, unless the value nests too deep. -/
def Reads (decode : Decoder α) (v : Json) (a : α) : Prop :=
  ∀ source : Source, decode source v.draft = within (source.Admits v.depth) a

/-- A value without parts is read whatever its source. -/
theorem Reads.of_scalar {decode : Decoder α} {v : Json} (hv : v.depth = 0)
    (h : ∀ source, decode source v.draft = .ok a) : Reads decode v a := by
  intro source
  rw [h, hv, within_of_true Source.admits_zero]

/-- A decoder reads one thing from a value. -/
theorem Reads.unique {decode : Decoder α} {v : Json} {a a' : α} (h : Reads decode v a)
    (h' : Reads decode v a') : a = a' :=
  Except.ok.inj ((h .whole).symm.trans (h' .whole))

/-- A string is read as it is. -/
theorem reads_string (text : String) : Reads string (.str text) text := .of_scalar rfl fun _ => rfl

/-- A truth value is read as it is. -/
theorem reads_boolean (value : Bool) : Reads boolean (.bool value) value :=
  .of_scalar rfl fun _ => rfl

/-- A word with a sign is read from its integer. -/
theorem reads_int64 (value : Int64) : Reads int64 (.int value.toInt) value := by
  refine .of_scalar rfl fun source => ?_
  rw [draft, int64, if_pos ⟨value.minValue_le_toInt, value.toInt_le⟩, Int64.ofInt_toInt]

/-- The integer of a word with a sign fits a word. -/
theorem legible_int64 (value : Int64) : (Json.int value.toInt).Legible := by
  have hlow := value.minValue_le_toInt
  have hhigh := value.toInt_lt
  rw [Int64.toInt_minValue] at hlow
  rw [Legible, word64]
  omega

/-- A word without a sign is read from its integer. -/
theorem reads_uint64 (value : UInt64) : Reads uint64 (.int value.toNat) value := by
  have hbound : (0 : Int) ≤ value.toNat ∧ (value.toNat : Int) < word64 :=
    ⟨Int.natCast_nonneg _, Int.ofNat_lt.2 value.toNat_lt⟩
  refine .of_scalar rfl fun source => ?_
  rw [draft, uint64, nat64, natBelow, if_pos hbound, Int.toNat_natCast]
  exact congrArg Except.ok UInt64.ofNat_toNat

/-- The integer of a word without a sign fits a word. -/
theorem legible_uint64 (value : UInt64) : (Json.int value.toNat).Legible := value.toNat_lt

/-- A value with a name is read by it. -/
theorem reads_choice {names : List (String × α)} {name : String}
    (h : names.lookup name = some a) : Reads (choice names) (.str name) a := by
  refine .of_scalar rfl fun source => ?_
  rw [draft, choice, named, h]
  rfl

/-- A list is read item by item. -/
theorem reads_list {decode : Decoder α} {items : List Json} {as : List α}
    (h : List.Forall₂ (Reads decode) items as) : Reads (list decode) (.arr items) as := by
  have hitems (source : Source) : (draftItems items).mapM (decode source) =
      within (source.Admits (depthItems items)) as := by
    induction h with
    | nil => exact (within_of_true Source.admits_zero).symm
    | cons hv _ ih =>
      rw [draftItems, List.mapM_cons, hv source, ih]
      exact Source.within_bind_max (within_bind_ok rfl)
  intro source
  refine Source.enter_bind fun inner => ?_
  rw [hitems]
  exact within_bind_ok rfl

/-- An encoded list is read if its members are. -/
theorem reads_list_map {decode : Decoder α} {encode : α → Json} (as : List α)
    (h : ∀ a ∈ as, Reads decode (encode a) a) : Reads (list decode) (.arr (as.map encode)) as :=
  reads_list (List.forall₂_map_left_iff.2 (List.forall₂_same.2 h))

/-- The integers in encoded values fit words if those of each value do. -/
theorem legibleItems_map {encode : α → Json} {as : List α} (h : ∀ a ∈ as, (encode a).Legible) :
    LegibleItems (as.map encode) := by
  induction as with
  | nil => trivial
  | cons a as ih =>
    obtain ⟨ha, has⟩ := List.forall_mem_cons.1 h
    exact ⟨ha, ih has⟩

/-- The integers in encoded members fit words if those of each member do. -/
theorem legibleMembers_map {encode : α → String × Json} {as : List α}
    (h : ∀ a ∈ as, (encode a).2.Legible) : LegibleMembers (as.map encode) := by
  induction as with
  | nil => trivial
  | cons a as ih =>
    obtain ⟨ha, has⟩ := List.forall_mem_cons.1 h
    exact ⟨ha, ih has⟩

/-- What is made of a value that was read. -/
theorem Reads.map {decode : Decoder α} {v : Json} (f : α → β) (h : Reads decode v a) :
    Reads (fun source v => (decode source v).map f) v (f a) := by
  intro source
  show (decode source v.draft).map f = _
  rw [h source]
  exact within_bind_ok rfl

/-- A value that may be `null` is read as one that is there. -/
theorem Reads.nullable {decode : Decoder α} {v : Json} (h : Reads decode v a) (hv : v ≠ .null) :
    Reads (nullable decode) v (some a) := by
  intro source
  cases v with
  | null => exact absurd rfl hv
  | bool | int | str | arr | obj => exact h.map some source

/-- A value that is `null` where it is not there. -/
theorem reads_orNull {decode : Decoder α} {encode : α → Json} {value : Option α}
    (hnull : ∀ a, encode a ≠ .null) (h : ∀ a ∈ value, Reads decode (encode a) a) :
    Reads (nullable decode) (orNull (value.map encode)) value := by
  cases value with
  | none => exact .of_scalar rfl fun _ => rfl
  | some a => exact (h a rfl).nullable (hnull a)

/-! ## Records -/

/-- The fields are read as `a` from the members of an object, unless their values nest more than
`d` levels deep; then there is a place at which the first of them is refused. -/
def Fields.Gives (fields : Fields α) (members : List (String × Json)) (d : Nat) (a : α) : Prop :=
  ∀ (source : Source) (keys : List String), ∃ position,
    fields.read ⟨source, keys, .keyed (draftMembers members), none⟩ =
      (within (source.Admits d) a).mapError (⟨position, ·⟩)

section
variable {members : List (String × Json)} {key : String} {v : Json} {decode : Decoder α}

/-- A key is found among drafts of members where the members have it. -/
theorem findKey?_draftMembers (members : List (String × Json)) (key : String) (position : Nat) :
    ∃ place, Record.findKey? key position (draftMembers members) =
      (members.lookup key).map fun v => (place, v.draft) := by
  induction members generalizing position with
  | nil => exact ⟨0, rfl⟩
  | cons member rest ih =>
    obtain ⟨name, v⟩ := member
    rw [draftMembers, Record.findKey?, List.lookup_cons]
    by_cases h : name = key
    · subst h
      exact ⟨position, by simp⟩
    · obtain ⟨place, hplace⟩ := ih (position + 1)
      have hne : (key == name) = false := by simpa using Ne.symm h
      exact ⟨place, by rw [if_neg h, hplace, hne]⟩

/-- The record of some members finds what they hold under a key. -/
theorem find?_draftMembers (source : Source) (keys : List String) (key : String) :
    ∃ place, Record.find? ⟨source, keys, .keyed (draftMembers members), none⟩ key =
      (members.lookup key).map fun v => (place, v.draft) :=
  findKey?_draftMembers members key 0

/-- How deep the value under a key nests; one that is not there does not nest. -/
def depthUnder (members : List (String × Json)) (key : String) : Nat :=
  (members.lookup key).elim 0 depth

/-- A field that may be left out is what is read from its value, and where there is none it is the
default. -/
theorem Fields.gives_default {value : α} (hnone : members.lookup key = none → a = value)
    (hsome : ∀ v, members.lookup key = some v → Reads decode v a) :
    (withDefault key value decode).Gives members (depthUnder members key) a := by
  intro source keys
  obtain ⟨place, hplace⟩ := find?_draftMembers source keys key
  refine ⟨place, ?_⟩
  cases hv : members.lookup key with
  | none =>
    have hdepth : depthUnder members key = 0 := by rw [depthUnder, hv, Option.elim_none]
    rw [hv, Option.map_none] at hplace
    rw [hdepth, within_of_true Source.admits_zero, hnone hv]
    simp only [withDefault, hplace]
    rfl
  | some v =>
    have hdepth : depthUnder members key = v.depth := by rw [depthUnder, hv, Option.elim_some]
    rw [hv, Option.map_some] at hplace
    rw [hdepth]
    simp only [withDefault, hplace, fieldAt, hsome v hv source]

/-- A member that is there is read, and its default does not matter. -/
theorem Fields.gives_withDefault {value : α} (hv : members.lookup key = some v)
    (h : Reads decode v a) : (withDefault key value decode).Gives members v.depth a := by
  have hgives : (withDefault key value decode).Gives members (depthUnder members key) a :=
    gives_default (fun hnone => by simp [hnone] at hv) fun w hw => by
      obtain rfl := Option.some.inj (hv.symm.trans hw)
      exact h
  rwa [depthUnder, hv] at hgives

/-- Where fields have keys, one that may be `null` may also be left out. -/
theorem Fields.gives_optional {value : Option α}
    (h : (omissible key decode).Gives members d value) :
    (optional key decode).Gives members d value := by
  intro source keys
  obtain ⟨position, hread⟩ := h source keys
  refine ⟨position, hread ▸ ?_⟩
  simp only [optional, omissible, withDefault]
  split <;> simp_all

/-- A required member that is there is read. -/
theorem Fields.gives_required (hv : members.lookup key = some v) (h : Reads decode v a) :
    (required key decode).Gives members v.depth a := by
  intro source keys
  obtain ⟨place, hplace⟩ := find?_draftMembers source keys key
  rw [hv, Option.map_some] at hplace
  refine ⟨place, ?_⟩
  simp only [required, hplace, fieldAt, h source]

/-- A member that was left out stands for the value that is not there. -/
theorem Fields.gives_omissible {encode : α → Json} {value : Option α}
    (hlookup : members.lookup key = value.map encode) (hnull : ∀ a, encode a ≠ .null)
    (h : ∀ a ∈ value, Reads decode (encode a) a) :
    (omissible key decode).Gives members ((value.map encode).elim 0 depth) value := by
  rw [← hlookup]
  refine gives_default (fun hnone => ?_) fun v hv => ?_
  · exact Option.map_eq_none_iff.1 (hlookup.symm.trans hnone)
  · obtain ⟨a, rfl, rfl⟩ := Option.map_eq_some_iff.1 (hlookup.symm.trans hv)
    exact (h a rfl).nullable (hnull a)

/-- What is found under the key of a member that may be left out. -/
theorem lookup_memberIfSome (key : String) (v : Option Json) :
    (memberIfSome key v).lookup key = v := by
  cases v with
  | none => rfl
  | some v => exact List.lookup_cons_self

/-- A member that may be left out has no other key than its own. -/
theorem keys_memberIfSome (key : String) (v : Option Json) :
    ((memberIfSome key v).map (·.1)).Sublist [key] := by
  cases v with
  | none => exact List.nil_sublist _
  | some v => exact .refl _

/-- What fields give may be changed by a function. -/
theorem Fields.Gives.map {fields : Fields α} (f : α → β) (h : fields.Gives members d a) :
    (f <$> fields).Gives members d (f a) := by
  intro source keys
  obtain ⟨position, hread⟩ := h source keys
  refine ⟨position, ?_⟩
  show Fields.combine (.ok f) (fields.read _) = _
  rw [hread]
  by_cases hp : source.Admits d <;> simp [within, hp, Except.mapError, Fields.combine]

/-- Of two groups of fields the one whose fault comes first is refused. -/
theorem Fields.Gives.seq {fields : Fields (α → β)} {others : Fields α} {f : α → β}
    (hf : fields.Gives members d f) (ha : others.Gives members e a) :
    (fields <*> others).Gives members (max d e) (f a) := by
  intro source keys
  obtain ⟨i, hi⟩ := hf source keys
  obtain ⟨j, hj⟩ := ha source keys
  show ∃ position, Fields.combine (fields.read _) (others.read _) = _
  rw [hi, hj, within_congr Source.admits_max]
  -- where both are refused, the place is that of the fault in front
  by_cases hd : source.Admits d <;> by_cases he : source.Admits e
  · exact ⟨0, by simp [within, hd, he, Except.mapError, Fields.combine]⟩
  · exact ⟨j, by simp [within, hd, he, Except.mapError, Fields.combine]⟩
  · exact ⟨i, by simp [within, hd, he, Except.mapError, Fields.combine]⟩
  · refine ⟨(Fault.first ⟨i, .malformed⟩ ⟨j, .malformed⟩).position, ?_⟩
    by_cases hlt : j < i <;>
      simp [within, hd, he, Except.mapError, Fields.combine, Fault.first, hlt]

/-- Members with known keys, none of them twice, are free of faults but in their values. -/
theorem faultOfMembers_draftMembers {keys seen : List String} {source : Source}
    {contents : Contents} (hkeys : members.map (·.1) ⊆ keys) (hnd : (members.map (·.1)).Nodup)
    (hseen : (members.map (·.1)).Disjoint seen) (position : Nat) :
    Record.faultOfMembers ⟨source, keys, contents, none⟩ seen position (draftMembers members)
      = none := by
  induction members generalizing seen position with
  | nil => rfl
  | cons member rest ih =>
    obtain ⟨key, v⟩ := member
    rw [List.map_cons] at hkeys hnd hseen
    obtain ⟨hnotin, hnd⟩ := List.nodup_cons.1 hnd
    obtain ⟨hnew, hseen⟩ := List.disjoint_cons_left.1 hseen
    have hknown : keys.contains key = true := by simpa using hkeys List.mem_cons_self
    rw [draftMembers, Record.faultOfMembers, if_pos hknown, if_neg (by simpa using hnew)]
    exact ih (fun _ h => hkeys (List.mem_cons_of_mem _ h)) hnd
      (List.disjoint_cons_right.2 ⟨hnotin, hseen⟩) _

/-- Members have no fault if their keys are known and differ. -/
theorem fault?_draftMembers {keys : List String} (hkeys : members.map (·.1) ⊆ keys)
    (hnd : (members.map (·.1)).Nodup) :
    Record.fault? ⟨source, keys, .keyed (draftMembers members), none⟩ = none :=
  faultOfMembers_draftMembers hkeys hnd (List.disjoint_nil_right _) 0

/-- A record is read field by field, whatever the order of its members. -/
theorem reads_members {keys : List String} {fields : Fields α}
    (h : fields.Gives members d a) (hd : d = depthMembers members)
    (hkeys : members.map (·.1) ⊆ keys) (hnd : (members.map (·.1)).Nodup) :
    Reads (record keys fields) (.obj members) a := by
  subst hd
  intro source
  refine Source.enter_bind fun inner => ?_
  obtain ⟨position, hread⟩ := h inner keys
  have hfault : Record.fault? ⟨inner, keys, .keyed (draftMembers members), none⟩ = none :=
    fault?_draftMembers hkeys hnd
  rw [Record.decode, hread, hfault]
  by_cases hp : inner.Admits (depthMembers members) <;> simp [within, hp, Except.mapError]

/-- A record is read from members that its fields give, if the keys come in their order. -/
theorem reads_record {keys : List String} {fields : Fields α}
    (h : fields.Gives members d a) (hd : d = depthMembers members)
    (hkeys : (members.map (·.1)).Sublist keys) (hnd : keys.Nodup) :
    Reads (record keys fields) (.obj members) a :=
  reads_members h hd hkeys.subset (hnd.sublist hkeys)

/-- Under a key is the value of a member. -/
theorem mem_of_lookup (hv : members.lookup key = some v) : (key, v) ∈ members := by
  obtain ⟨before, after, rfl, -⟩ := List.lookup_eq_some_iff.1 hv
  exact List.mem_append_right _ List.mem_cons_self

/-- Where the keys are different, the value of each member is under its key. -/
theorem lookup_of_mem (hnd : (members.map (·.1)).Nodup) (hv : (key, v) ∈ members) :
    members.lookup key = some v := by
  induction hv with
  | head => exact List.lookup_cons_self
  | tail member hmem ih =>
    obtain ⟨hnotin, hnd⟩ := List.nodup_cons.1 hnd
    have hne : (key == member.1) = false :=
      beq_false_of_ne fun heq => hnotin (List.mem_map.2 ⟨(key, v), hmem, heq⟩)
    rw [List.lookup_cons, hne]
    exact ih hnd

/-- Values nest as deep as the deepest of them. -/
theorem depthItems_le {items : List Json} {n : Nat} (h : ∀ v ∈ items, v.depth ≤ n) :
    depthItems items ≤ n := by
  induction items with
  | nil => exact n.zero_le
  | cons v rest ih =>
    obtain ⟨hv, hrest⟩ := List.forall_mem_cons.1 h
    exact max_le hv (ih hrest)

/-- Members nest as deep as the deepest of them. -/
theorem depthMembers_le {n : Nat} (h : ∀ member ∈ members, member.2.depth ≤ n) :
    depthMembers members ≤ n := by
  induction members with
  | nil => exact n.zero_le
  | cons member rest ih =>
    obtain ⟨hv, hrest⟩ := List.forall_mem_cons.1 h
    exact max_le hv (ih hrest)

/-- No member nests deeper than all of them. -/
theorem le_depthMembers (hv : (key, v) ∈ members) : v.depth ≤ depthMembers members := by
  induction hv with
  | head => exact le_max_left ..
  | tail _ _ ih => exact ih.trans (le_max_right ..)

/-- What is under a key nests no deeper than all members. -/
theorem depthUnder_le (members : List (String × Json)) (key : String) :
    depthUnder members key ≤ depthMembers members := by
  rw [depthUnder]
  cases hv : members.lookup key with
  | none => exact Nat.zero_le _
  | some v => exact le_depthMembers (mem_of_lookup hv)

/-- Of members with different keys the deepest one is found under its key. -/
theorem eq_depthMembers {keys : List String} (hkeys : members.map (·.1) ⊆ keys)
    (hnd : (members.map (·.1)).Nodup) (hle : ∀ key ∈ keys, depthUnder members key ≤ d)
    (hge : d ≤ depthMembers members) : d = depthMembers members := by
  refine le_antisymm hge (depthMembers_le fun (key, v) hv => ?_)
  have hunder : depthUnder members key = v.depth := by
    rw [depthUnder, lookup_of_mem hnd hv, Option.elim_some]
  rw [← hunder]
  exact hle key (hkeys (List.mem_map_of_mem hv))

/-! ## Tagged values -/

/-- The rest of a tagged value was taken in whole, so it is read however deep it nests. -/
theorem variant_draft {keys : List String} {fields : Fields α} (h : fields.Gives members d a)
    (hkeys : (members.map (·.1)).Sublist keys) (hnd : keys.Nodup) :
    variant keys fields (draft (.obj members)) = .ok a := by
  obtain ⟨position, hread⟩ := h .whole keys
  have hfault : Record.fault? ⟨.whole, keys, .keyed (draftMembers members), none⟩ = none :=
    fault?_draftMembers hkeys.subset (hnd.sublist hkeys)
  show Record.decode _ fields = .ok a
  rw [Record.decode, hread, hfault]
  rfl

/-- Members without the tag among them are taken in and kept. -/
theorem splitTag_draftMembers {tagKey : String} {names : List String}
    (htag : ∀ member ∈ members, member.1 ≠ tagKey) (tag : Option String) :
    splitTag tagKey names source tag (draftMembers members) =
      within (source.Admits (depthMembers members)) (tag, draftMembers members) := by
  induction members with
  | nil => exact (within_of_true Source.admits_zero).symm
  | cons member rest ih =>
    obtain ⟨key, v⟩ := member
    obtain ⟨hkey, htag⟩ := List.forall_mem_cons.1 htag
    rw [draftMembers, splitTag, Key.read, Except.ok_bind, if_neg hkey, source.takeIn_draft, ih htag]
    exact Source.within_bind_max (within_bind_ok rfl)

/-- A value whose tag stands in front is read by what the tag selects. -/
theorem reads_tagged {tagKey name : String} {names : List String}
    {body : String → Draft → Except Failure α} (hname : name ∈ names)
    (htag : ∀ member ∈ members, member.1 ≠ tagKey)
    (hbody : body name (draft (.obj members)) = .ok a) :
    Reads (tagged tagKey names body) (.obj ((tagKey, .str name) :: members)) a := by
  intro source
  refine Source.enter_bind fun inner => ?_
  have hsplit : splitTag tagKey names inner none (draftMembers ((tagKey, .str name) :: members)) =
      within (inner.Admits (depthMembers ((tagKey, .str name) :: members)))
        (some name, draftMembers members) := by
    have hread : tagName names inner (draft (.str name)) = .ok name := if_pos hname
    rw [draftMembers, splitTag, Key.read, Except.ok_bind, if_pos rfl, hread]
    refine (splitTag_draftMembers htag (some name)).trans (within_congr ?_)
    exact (Source.admits_max.trans (and_iff_right Source.admits_zero)).symm
  rw [hsplit]
  exact within_bind_ok hbody

/-- A value whose tag selects some fields is read field by field. -/
theorem reads_variant (fields : Fields α) {tagKey name : String} {names keys : List String}
    {body : String → Draft → Except Failure α} (h : fields.Gives members d a)
    (hbody : body name = variant keys fields) (hname : name ∈ names)
    (hkeys : (members.map (·.1)).Sublist keys) (hnd : (tagKey :: keys).Nodup) :
    Reads (tagged tagKey names body) (.obj ((tagKey, .str name) :: members)) a := by
  obtain ⟨htag, hnd⟩ := List.nodup_cons.1 hnd
  refine reads_tagged hname (fun member hm heq => ?_) ?_
  · exact htag (heq ▸ hkeys.subset (List.mem_map_of_mem hm))
  · rw [hbody]
    exact variant_draft h hkeys hnd

end

/-! ## Texts -/

/-- A text for a value is decoded as the decoder reads the value, unless the text nests more arrays
and objects inside each other than texts may. -/
theorem Reads.decode_written {decode : Decoder α} {v : Json} {text : String} (h : Reads decode v a)
    (hv : v.Legible) (hw : v.Written text.toList) :
    Json.decode decode text = if v.depth ≤ nestingLimit then .ok a else .error .malformed := by
  obtain ⟨after, hafter, hread⟩ := readText_written hw hv
  have hend : endsText (some after) = true := by
    rw [endsText, Option.any_some, skipSpace, List.dropWhile_eq_nil_iff.2 hafter]
    rfl
  rw [Json.decode, hread]
  show (decode (.text nestingLimit) v.draft >>= fun value =>
    if endsText (some after) then .ok value else .error .malformed) = _
  rw [h, hend]
  exact within_bind_ok rfl

end

end ShaderShrink.Json
