import ConsentBanner.Browser.Transport
import ConsentBanner.Proofs.Json.Chars
import ConsentBanner.Proofs.Json.Fields
import ConsentBanner.Proofs.Json.Number
import ConsentBanner.Text.Utf8

/-!
The characters of written documents, and documents in JSON form.
-/

namespace ConsentBanner.Json

/-- Separators that the reader passes over: a mark, then white space. -/
structure Format.IsReadable (f : Format) : Prop where
  item : ∃ gap, f.itemSeparator.toList = ',' :: gap ∧ ∀ c ∈ gap, isSpace c
  key : ∃ gap, f.keySeparator.toList = ':' :: gap ∧ ∀ c ∈ gap, isSpace c

mutual

/-- A document of JSON values that have one written form: no object has a key twice, no integer too many digits. -/
def IsPlain : Json → Prop
  | null => True
  | bool _ => True
  | int n => (Nat.toDigits 10 n.natAbs).length ≤ Text.maxDigits
  | float x => x.Normal
  | str _ => True
  | arr items => ItemsArePlain items
  | obj fields => (fields.map (·.1)).Nodup ∧ FieldsArePlain fields
  | _ => False

def ItemsArePlain : List Json → Prop
  | [] => True
  | v :: rest => IsPlain v ∧ ItemsArePlain rest

def FieldsArePlain : List (String × Json) → Prop
  | [] => True
  | (_, v) :: rest => IsPlain v ∧ FieldsArePlain rest

end

instance (x : Double) : Decidable x.Normal :=
  match x with
  | .nan => .isTrue trivial
  | .infinite _ => .isTrue trivial
  | .finite _ _ _ => inferInstanceAs (Decidable (_ ∧ _ ∧ _ ∧ _))

mutual

def decidePlain : (v : Json) → Decidable (IsPlain v)
  | null => .isTrue trivial
  | bool _ => .isTrue trivial
  | int _ => inferInstanceAs (Decidable (_ ≤ _))
  | float x => inferInstanceAs (Decidable x.Normal)
  | str _ => .isTrue trivial
  | arr items => decideItems items
  | obj fields => @instDecidableAnd _ _ inferInstance (decideFields fields)
  | date _ => .isFalse id
  | moment _ => .isFalse id
  | bytes _ => .isFalse id
  | pair _ _ => .isFalse id
  | set _ => .isFalse id
  | keyed _ _ => .isFalse id

def decideItems : (items : List Json) → Decidable (ItemsArePlain items)
  | [] => .isTrue trivial
  | v :: rest => @instDecidableAnd _ _ (decidePlain v) (decideItems rest)

def decideFields : (fields : List (String × Json)) → Decidable (FieldsArePlain fields)
  | [] => .isTrue trivial
  | (_, v) :: rest => @instDecidableAnd _ _ (decidePlain v) (decideFields rest)

end

instance (v : Json) : Decidable (IsPlain v) := decidePlain v

theorem fieldsArePlain_iff {fields : List (String × Json)} : FieldsArePlain fields ↔ ∀ f ∈ fields, f.2.IsPlain := by
  induction fields with
  | nil => exact iff_of_true trivial (List.forall_mem_nil _)
  | cons f rest ih => rw [FieldsArePlain, ih, List.forall_mem_cons]

theorem unkeyed_of_isPlain {v : Json} (h : v.IsPlain) (k w : Json) : v ≠ keyed k w := by
  rintro rfl
  exact h

theorem isPlain_of_get? {fields : List (String × Json)} {key : String} {v : Json} (h : FieldsArePlain fields)
    (hv : Fields.get? key fields = some v) : v.IsPlain :=
  fieldsArePlain_iff.1 h _ (Fields.mem_of_get? hv)

theorem isPlain_getD {v : Json} (h : v.IsPlain) (key : String) : (v.getD key).IsPlain := by
  cases v with
  | obj fields =>
    rw [getD, get?]
    cases hv : Fields.get? key fields with
    | none => trivial
    | some w => exact isPlain_of_get? h.2 hv
  | _ => trivial

mutual

/-- A document of JSON values that have one written form. Its integers have at most so many digits as the limit says, if
there is one. -/
def IsPlainWithin (limit : Option Nat) : Json → Prop
  | null => True
  | bool _ => True
  | int n => ∀ most ∈ limit, (Nat.toDigits 10 n.natAbs).length ≤ most
  | float x => x.Normal
  | str _ => True
  | arr items => ItemsArePlainWithin limit items
  | obj fields => (fields.map (·.1)).Nodup ∧ FieldsArePlainWithin limit fields
  | _ => False

def ItemsArePlainWithin (limit : Option Nat) : List Json → Prop
  | [] => True
  | v :: rest => IsPlainWithin limit v ∧ ItemsArePlainWithin limit rest

def FieldsArePlainWithin (limit : Option Nat) : List (String × Json) → Prop
  | [] => True
  | (_, v) :: rest => IsPlainWithin limit v ∧ FieldsArePlainWithin limit rest

end

mutual

theorem isPlain_iff (v : Json) : IsPlain v ↔ IsPlainWithin (some Text.maxDigits) v := by
  match v with
  | .null | .bool _ | .float _ | .str _ | .date _ | .moment _ | .bytes _ | .pair _ _ | .set _ | .keyed _ _ =>
    exact Iff.rfl
  | .int n => simp [IsPlain, IsPlainWithin]
  | .arr items => exact itemsArePlainWithin_iff items
  | .obj fields => exact and_congr_right fun _ => fieldsArePlainWithin_iff fields

theorem itemsArePlainWithin_iff (items : List Json) :
    ItemsArePlain items ↔ ItemsArePlainWithin (some Text.maxDigits) items := by
  match items with
  | [] => exact Iff.rfl
  | v :: rest => exact and_congr (isPlain_iff v) (itemsArePlainWithin_iff rest)

theorem fieldsArePlainWithin_iff (fields : List (String × Json)) :
    FieldsArePlain fields ↔ FieldsArePlainWithin (some Text.maxDigits) fields := by
  match fields with
  | [] => exact Iff.rfl
  | (_, v) :: rest => exact and_congr (isPlain_iff v) (fieldsArePlainWithin_iff rest)

end

variable {limit : Option Nat}

theorem fieldName_of_isPlain {v : Json} (h : IsPlainWithin limit v) (k : String) : fieldName k v = k := by
  cases v with
  | keyed key value => exact h.elim
  | _ => rfl

/-- A character that stands for itself wherever a document is written. -/
def IsMark (c : Char) : Prop := Text.isAscii c ∧ c ≠ '<' ∧ c ≠ '>' ∧ c ≠ '&'

instance (c : Char) : Decidable (IsMark c) := inferInstanceAs (Decidable (_ ∧ _))

theorem isMark_of_isNumeral {c : Char} (h : isNumeral c) : IsMark c :=
  forall_isNumeral (p := IsMark) (by decide) (Text.forall_mem_of_all (by decide)) h

theorem isMark_of_isSpace {c : Char} (h : isSpace c) : IsMark c := by
  simp only [isSpace, Bool.or_eq_true, beq_iff_eq] at h
  obtain ((rfl | rfl) | rfl) | rfl := h <;> decide

theorem isMark_of_escapeChar? {letter c : Char} (h : escapeChar? letter = some c) : IsMark letter := by
  unfold escapeChar? at h
  split at h <;> first | decide | cases h

theorem head_of_isDigit {negative : Bool} {c : Char} (hc : c.isDigit) (ds : List Char) :
    ∃ d cs, sign negative ++ c :: ds = d :: cs ∧ IsMark d ∧ isSpace d = false ∧ d ≠ ']' := by
  have small : ∀ d < 10, isSpace (Nat.digitChar d) = false ∧ Nat.digitChar d ≠ ']' := by decide
  cases negative with
  | true => exact ⟨'-', _, rfl, by decide, rfl, by decide⟩
  | false =>
    obtain ⟨d, hd, rfl⟩ := Text.exists_digitChar_of_isDigit hc
    exact ⟨_, ds, rfl, isMark_of_isNumeral (isNumeral_of_isDigit hc), small d hd⟩

/-- A written document begins with a mark that no white space and no end of a list begins with. -/
theorem write_of_isPlainWithin {v : Json} (h : IsPlainWithin limit v) (f : Format) :
    ∃ c cs, write f v = c :: cs ∧ IsMark c ∧ isSpace c = false ∧ c ≠ ']' := by
  cases v with
  | null => exact ⟨'n', _, rfl, by decide, rfl, by decide⟩
  | bool b =>
    cases b with
    | true => exact ⟨'t', _, rfl, by decide, rfl, by decide⟩
    | false => exact ⟨'f', _, rfl, by decide, rfl, by decide⟩
  | int n =>
    have hread := readNumber_int h ends_nil
    rw [List.append_nil] at hread
    obtain ⟨negative, c, ds, hc, heq⟩ := head_of_readNumber hread
    rw [write, heq]
    exact head_of_isDigit hc ds
  | float x =>
    match x with
    | .nan => exact ⟨'N', _, rfl, by decide, rfl, by decide⟩
    | .infinite true => exact ⟨'-', _, rfl, by decide, rfl, by decide⟩
    | .infinite false => exact ⟨'I', _, rfl, by decide, rfl, by decide⟩
    | .finite negative m q =>
      have hread := @readNumber_double limit negative [] m q h ends_nil
      rw [List.append_nil] at hread
      obtain ⟨negative, c, ds, hc, heq⟩ := head_of_readNumber hread
      rw [write, writeDouble, heq]
      exact head_of_isDigit hc ds
  | str s => exact ⟨'\x22', _, rfl, by decide, rfl, by decide⟩
  | arr items => exact ⟨'[', _, rfl, by decide, rfl, by decide⟩
  | obj fields => exact ⟨'\x7b', _, rfl, by decide, rfl, by decide⟩
  | _ => exact h.elim

theorem write_of_isPlain {v : Json} (h : IsPlain v) (f : Format) :
    ∃ c cs, write f v = c :: cs ∧ IsMark c ∧ isSpace c = false ∧ c ≠ ']' :=
  write_of_isPlainWithin ((isPlain_iff v).1 h) f

/-- What stands after the first part of a list or an object: nothing, or the separator and the other parts. -/
def separated {α : Type} (f : Format) (others : List α) (text : List Char) : List Char :=
  if others.isEmpty then [] else f.itemSeparator.toList ++ text

theorem writeItems_cons (f : Format) (v : Json) (more : List Json) :
    writeItems f (v :: more) = write f v ++ separated f more (writeItems f more) := by
  cases more with
  | nil => simp [writeItems, separated]
  | cons next more => simp [writeItems, separated]

theorem writeFields_cons (f : Format) (k : String) (v : Json) (more : List (String × Json)) :
    writeFields f ((k, v) :: more) = writeString f.ascii (fieldName k v) ++
      (f.keySeparator.toList ++ (write f v ++ separated f more (writeFields f more))) := by
  cases more with
  | nil => simp [writeFields, separated]
  | cons next more => simp [writeFields, separated]

theorem writeFields_of_isPlain {v : Json} (hv : IsPlainWithin limit v) (f : Format) (k : String)
    (more : List (String × Json)) :
    writeFields f ((k, v) :: more) =
      writeString f.ascii k ++ (f.keySeparator.toList ++ (write f v ++ separated f more (writeFields f more))) := by
  rw [writeFields_cons, fieldName_of_isPlain hv]

section Portable

theorem fieldsAreWritable_iff {fields : List (String × Json)} :
    Transport.fieldsAreWritable fields = true ↔ ∀ f ∈ fields, Transport.isWritable f.2 = true := by
  induction fields with
  | nil => exact iff_of_true rfl (List.forall_mem_nil _)
  | cons f rest ih => rw [Transport.fieldsAreWritable, Bool.and_eq_true, ih, List.forall_mem_cons]

theorem portable_ne_keyed : (v k w : Json) → v.portable ≠ keyed k w
  | keyed _ v, k, w => by
    rw [portable]
    exact portable_ne_keyed v k w
  | float x, k, w => by
    rw [portable]
    split
    · exact nofun
    · exact nofun
  | null, _, _ => nofun
  | bool _, _, _ => nofun
  | int _, _, _ => nofun
  | str _, _, _ => nofun
  | arr _, _, _ => nofun
  | obj _, _, _ => nofun
  | date _, _, _ => nofun
  | moment _, _, _ => nofun
  | bytes _, _, _ => nofun
  | pair _ _, _, _ => nofun
  | set _, _, _ => nofun

theorem fieldName_of_unkeyed {v : Json} (h : ∀ k w, v ≠ keyed k w) (name : String) : fieldName name v = name := by
  cases v with
  | keyed k w => exact absurd rfl (h k w)
  | _ => rfl

theorem exists_portable_of_mem {fields : List (String × Json)} :
    ∀ f ∈ portableFields fields, ∃ v, f.2 = portable v := by
  induction fields with
  | nil => exact List.forall_mem_nil _
  | cons f rest ih =>
    rw [portableFields, List.forall_mem_cons]
    exact ⟨⟨f.2, rfl⟩, ih⟩

/-- A block in JSON form has no key that is no text, and no key twice. -/
theorem unkeyed_portableBlock {fields : List (String × Json)} :
    ∀ f ∈ portableBlock fields, ∀ k w, f.2 ≠ keyed k w := by
  intro f hf k w
  obtain ⟨v, hv⟩ := exists_portable_of_mem f (Fields.mem_of_mem_ofPairs hf)
  rw [hv]
  exact portable_ne_keyed v k w

theorem nodup_portableBlock (fields : List (String × Json)) : ((portableBlock fields).map (·.1)).Nodup :=
  Fields.nodup_ofPairs _

mutual

theorem portable_of_isWritable : {v : Json} → v.IsPlain → Transport.isWritable v = true → v.portable = v
  | float x, _, h => if_pos h
  | arr items, hplain, h => by rw [portable, portableItems_of_areWritable hplain h]
  | obj fields, hplain, h => by
    rw [portable, portableFields_of_areWritable hplain.2 h, Fields.ofPairs_of_nodup hplain.1]
  | null, _, _ => rfl
  | bool _, _, _ => rfl
  | int _, _, _ => rfl
  | str _, _, _ => rfl

theorem portableItems_of_areWritable : {items : List Json} → ItemsArePlain items →
    Transport.areWritable items = true → portableItems items = items
  | [], _, _ => rfl
  | v :: rest, hplain, h => by
    rw [Transport.areWritable, Bool.and_eq_true] at h
    rw [portableItems, portable_of_isWritable hplain.1 h.1, portableItems_of_areWritable hplain.2 h.2]

theorem portableFields_of_areWritable : {fields : List (String × Json)} → FieldsArePlain fields →
    Transport.fieldsAreWritable fields = true → portableFields fields = fields
  | [], _, _ => rfl
  | (k, v) :: rest, hplain, h => by
    rw [Transport.fieldsAreWritable, Bool.and_eq_true] at h
    rw [portableFields, fieldName_of_unkeyed (unkeyed_of_isPlain hplain.1), portable_of_isWritable hplain.1 h.1,
      portableFields_of_areWritable hplain.2 h.2]

end

/-- A JSON document with finite numbers. -/
structure IsFinite (v : Json) : Prop where
  plain : v.IsPlain
  writable : Transport.isWritable v = true

namespace IsFinite

variable {v : Json} {items : List Json} {fields : List (String × Json)}

theorem head (h : (arr (v :: items)).IsFinite) : v.IsFinite := ⟨h.plain.1, (Bool.and_eq_true_iff.1 h.writable).1⟩

theorem tail (h : (arr (v :: items)).IsFinite) : (arr items).IsFinite :=
  ⟨h.plain.2, (Bool.and_eq_true_iff.1 h.writable).2⟩

theorem values (h : (obj fields).IsFinite) : ∀ f ∈ fields, f.2.IsFinite :=
  fun f hf => ⟨fieldsArePlain_iff.1 h.plain.2 f hf, fieldsAreWritable_iff.1 h.writable f hf⟩

theorem of_get? (h : (obj fields).IsFinite) {key : String} (hv : Fields.get? key fields = some v) :
    v.IsFinite := h.values _ (Fields.mem_of_get? hv)

theorem filter (h : (obj fields).IsFinite) (p : String × Json → Bool) : (obj (fields.filter p)).IsFinite where
  plain := ⟨h.plain.1.sublist (List.filter_sublist.map _),
    fieldsArePlain_iff.2 fun f hf => (h.values f (List.mem_filter.1 hf).1).plain⟩
  writable := fieldsAreWritable_iff.2 fun f hf => (h.values f (List.mem_filter.1 hf).1).writable

theorem portableBlock (h : (obj fields).IsFinite) : Json.portableBlock fields = fields :=
  obj.inj (portable_of_isWritable h.plain h.writable)

end IsFinite

end Portable

end ConsentBanner.Json
