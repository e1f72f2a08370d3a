import ConsentBanner.Proofs.Json.Fields
import ConsentBanner.Proofs.Json.Plain

/-!
Documents are read as they were written, also when the characters of their texts have been escaped once more.
-/

namespace ConsentBanner.Json

/-- Another spelling of written documents, in which marks stand for themselves and every character of a text is read
as before. -/
structure Respells (e : Char → List Char) : Prop where
  mark {c : Char} : IsMark c → e c = [c]
  read (ascii : Bool) {opened : List Char} (c : Char) {rest : List Char} : rest ≠ [] →
    readChars opened ((writeChar ascii c).flatMap e ++ rest) = withChar c (readChars opened rest)

theorem respells_self : Respells ([·]) where
  mark _ := rfl
  read ascii _ c _ h := by
    rw [List.flatMap_singleton']
    exact readChars_writeChar ascii c h

theorem skipSpace_append {gap : List Char} (h : ∀ c ∈ gap, isSpace c) (rest : List Char) :
    skipSpace (gap ++ rest) = skipSpace rest := List.dropWhile_append_of_pos h

theorem skipSpace_cons {c : Char} (h : isSpace c = false) (rest : List Char) :
    skipSpace (c :: rest) = c :: rest := by
  rw [skipSpace, List.dropWhile_cons, if_neg (by simp [h])]

theorem readName?_number {negative : Bool} {c : Char} (hc : c.isDigit) (ds : List Char) :
    readName? (sign negative ++ c :: ds) = none := by
  have small : ∀ d < 10, (['n', 't', 'f', 'N', 'I'].all fun l => !(l == Nat.digitChar d)) = true := by decide
  obtain ⟨d, hd, rfl⟩ := Text.exists_digitChar_of_isDigit hc
  have hne := small d hd
  cases negative with
  | true => simp_all [readName?, names, sign, List.isPrefixOf]
  | false =>
    have hminus : ('-' == Nat.digitChar d) = false := by
      have small : ∀ d < 10, ('-' == Nat.digitChar d) = false := by decide
      exact small d hd
    simp_all [readName?, names, sign, List.isPrefixOf]

variable {limit : Option Nat}

theorem readValue_number {cs : List Char} {r : Json × List Char} (h : readNumber limit cs = .ok r) (fuel : Nat) :
    readValueWithin limit (fuel + 1) cs = .ok r := by
  obtain ⟨negative, c, ds, hc, rfl⟩ := head_of_readNumber h
  have hscalar : readScalar limit (sign negative ++ c :: ds) = .ok r := by
    rw [readScalar, readName?_number hc]
    exact h
  cases negative with
  | true => exact hscalar
  | false =>
    change readValueWithin limit (fuel + 1) (c :: ds) = _
    rw [readValueWithin]
    · exact hscalar
    · exact fun _ heq => Text.ne_of_isDigit hc rfl (List.cons.inj heq).1
    · exact fun _ heq => Text.ne_of_isDigit hc rfl (List.cons.inj heq).1
    · exact fun _ heq => Text.ne_of_isDigit hc rfl (List.cons.inj heq).1

/-- Numbers are not ended by a mark of their own. -/
def IsNumber : Json → Prop
  | int _ => True
  | float _ => True
  | _ => False

variable {f : Format} {e : Char → List Char}

theorem Respells.flatMap (he : Respells e) {cs : List Char} (h : ∀ c ∈ cs, IsMark c) : cs.flatMap e = cs := by
  induction cs with
  | nil => rfl
  | cons c rest ih =>
    rw [List.flatMap_cons, he.mark (h c List.mem_cons_self), ih fun d hd => h d (List.mem_cons_of_mem _ hd)]
    rfl

theorem Respells.separator (he : Respells e) {gap : List Char} (h : ∀ c ∈ gap, isSpace c) {mark : Char}
    (hmark : IsMark mark) : (mark :: gap).flatMap e = mark :: gap :=
  he.flatMap fun c hc => by
    obtain rfl | hc := List.mem_cons.1 hc
    · exact hmark
    · exact isMark_of_isSpace (h c hc)

theorem Respells.writeString (he : Respells e) (ascii : Bool) (s : String) (rest : List Char) :
    (writeString ascii s).flatMap e ++ rest =
      '\x22' :: (s.toList.flatMap (fun c => (writeChar ascii c).flatMap e) ++ '\x22' :: rest) := by
  have hquote : e '\x22' = ['\x22'] := he.mark (by decide)
  simp [Json.writeString, List.flatMap_assoc, hquote]

theorem Respells.readChars (he : Respells e) (ascii : Bool) {opened : List Char} (s : String) (rest : List Char) :
    readChars opened (s.toList.flatMap (fun c => (writeChar ascii c).flatMap e) ++ '\x22' :: rest) =
      .ok (s.toList, rest) := readChars_flatMap (he.read ascii) s.toList rest

theorem Respells.head (he : Respells e) {v : Json} (hv : IsPlainWithin limit v) (f : Format) :
    ∃ c cs, (write f v).flatMap e = c :: cs ∧ isSpace c = false ∧ c ≠ ']' := by
  obtain ⟨c, cs, hc, hmark, hspace, hend⟩ := write_of_isPlainWithin hv f
  refine ⟨c, cs.flatMap e, ?_, hspace, hend⟩
  rw [hc, List.flatMap_cons, he.mark hmark]
  rfl

/-- The items of a list from the text after the first on. -/
def readOthers (limit : Option Nat) (fuel : Nat) (v : Json) (rest : List Char) :
    Except ReadError (List Json × List Char) :=
  match skipSpace rest with
  | ']' :: after => .ok ([v], after)
  | ',' :: rest => do
    let (vs, after) ← readItems limit fuel (skipSpace rest)
    .ok (v :: vs, after)
  | rest => failAt rest

/-- The pairs of an object from the text after the value of the first on. -/
def readMore (limit : Option Nat) (fuel : Nat) (k : String) (v : Json) (rest : List Char) :
    Except ReadError (List (String × Json) × List Char) :=
  match skipSpace rest with
  | '\x7d' :: after => .ok ([(k, v)], after)
  | ',' :: rest => do
    let (pairs, after) ← readPairs limit fuel (skipSpace rest)
    .ok ((k, v) :: pairs, after)
  | rest => failAt rest

theorem readPairs_cons (hf : f.IsReadable) (he : Respells e) {v : Json} (hv : IsPlainWithin limit v) {fuel : Nat}
    (k : String) (rest : List Char)
    (hvalue : readValueWithin limit fuel ((write f v).flatMap e ++ rest) = .ok (v, rest)) :
    readPairs limit (fuel + 1) ((writeString f.ascii k).flatMap e ++ (f.keySeparator.toList.flatMap e ++
      ((write f v).flatMap e ++ rest))) = readMore limit fuel k v rest := by
  obtain ⟨gap, hgap, hspace⟩ := hf.key
  obtain ⟨c, cs, hc, hhead, -⟩ := he.head hv f
  have hskip : skipSpace (gap ++ ((write f v).flatMap e ++ rest)) = (write f v).flatMap e ++ rest := by
    rw [skipSpace_append hspace, hc, List.cons_append, skipSpace_cons hhead]
  rw [he.writeString, hgap, he.separator hspace (by decide), List.cons_append, readPairs, he.readChars]
  change (readValueWithin limit fuel (skipSpace (gap ++ ((write f v).flatMap e ++ rest))) >>=
    fun r => readMore limit fuel (String.ofList k.toList) r.1 r.2) = _
  rw [hskip, hvalue, String.ofList_toList]
  rfl

theorem ends_separated (hf : f.IsReadable) (he : Respells e) {α : Type} (others : List α) (text : List Char) {close : Char}
    (hclose : Ends [close]) (rest : List Char) : Ends ((separated f others text).flatMap e ++ close :: rest) := by
  rw [separated]
  split
  · exact fun c hc => hclose c hc
  · obtain ⟨gap, hgap, hspace⟩ := hf.item
    rw [hgap, List.flatMap_append, he.separator hspace (by decide)]
    rintro c ⟨⟩
    decide

theorem separated_eq (hf : f.IsReadable) (he : Respells e) {α : Type} {others : List α} (hne : others ≠ []) (text rest : List Char) :
    ∃ gap, (∀ c ∈ gap, isSpace c) ∧
      (separated f others text).flatMap e ++ rest = ',' :: (gap ++ (text.flatMap e ++ rest)) := by
  obtain ⟨gap, hgap, hspace⟩ := hf.item
  refine ⟨gap, hspace, ?_⟩
  rw [separated, if_neg (by simpa using hne), hgap, List.flatMap_append, he.separator hspace (by decide),
    List.append_assoc, List.cons_append]

theorem fields_head (he : Respells e) {v : Json} (hv : IsPlainWithin limit v) (k : String)
    (more : List (String × Json)) (rest : List Char) :
    ∃ cs, (writeFields f ((k, v) :: more)).flatMap e ++ rest = '\x22' :: cs := by
  rw [writeFields_of_isPlain hv, List.flatMap_append, List.append_assoc, he.writeString]
  exact ⟨_, rfl⟩

theorem items_head (he : Respells e) {v : Json} (hv : IsPlainWithin limit v) (more : List Json) (rest : List Char) :
    ∃ c cs, (writeItems f (v :: more)).flatMap e ++ rest = c :: cs ∧ isSpace c = false ∧ c ≠ ']' := by
  obtain ⟨c, cs, hc, hhead⟩ := he.head hv f
  rw [writeItems_cons, List.flatMap_append, hc]
  exact ⟨c, _, rfl, hhead⟩

theorem write_arr_append (he : Respells e) (v : Json) (more : List Json) (rest : List Char) :
    (write f (.arr (v :: more))).flatMap e ++ rest = '[' :: ((writeItems f (v :: more)).flatMap e ++ ']' :: rest) := by
  rw [write, List.flatMap_cons, he.mark (by decide), List.flatMap_append, List.flatMap_singleton, he.mark (by decide),
    List.singleton_append, List.cons_append, List.append_assoc]
  rfl

theorem write_obj_append (he : Respells e) (k : String) (v : Json) (more : List (String × Json)) (rest : List Char) :
    (write f (.obj ((k, v) :: more))).flatMap e ++ rest =
      '\x7b' :: ((writeFields f ((k, v) :: more)).flatMap e ++ '\x7d' :: rest) := by
  rw [write, List.flatMap_cons, he.mark (by decide), List.flatMap_append, List.flatMap_singleton, he.mark (by decide),
    List.singleton_append, List.cons_append, List.append_assoc]
  rfl

mutual

theorem readValueWithin_write (hf : f.IsReadable) (he : Respells e) (v : Json) (hv : IsPlainWithin limit v) {fuel : Nat}
    (rest : List Char) (hrest : IsNumber v → Ends rest)
    (hfuel : 2 * ((write f v).flatMap e).length ≤ fuel) :
    readValueWithin limit fuel ((write f v).flatMap e ++ rest) = .ok (v, rest) := by
  cases fuel with
  | zero =>
    obtain ⟨c, cs, hc, -⟩ := he.head hv f
    rw [hc, List.length_cons] at hfuel
    omega
  | succ fuel =>
    have name {s : String} (h : (s.toList.all fun c => decide (IsMark c)) = true) : s.toList.flatMap e = s.toList :=
      he.flatMap (Text.forall_mem_of_all h)
    match v with
    | .null =>
      rw [write, name (by decide)]
      rfl
    | .bool true =>
      rw [write, if_pos rfl, name (by decide)]
      rfl
    | .bool false =>
      rw [write, if_neg Bool.false_ne_true, name (by decide)]
      rfl
    | .int n =>
      rw [write, he.flatMap fun _ hc => isMark_of_isNumeral (isNumeral_of_mem_int hc)]
      exact readValue_number (readNumber_int hv (hrest trivial)) fuel
    | .float x =>
      rw [write, he.flatMap fun _ hc => isMark_of_isNumeral (isNumeral_of_mem_double hc)]
      match x with
      | .nan => rfl
      | .infinite true => rfl
      | .infinite false => rfl
      | .finite negative m q => exact readValue_number (readNumber_double hv (hrest trivial)) fuel
    | .str s =>
      rw [write, he.writeString, readValueWithin, he.readChars]
      change Except.ok (Json.str (String.ofList s.toList), rest) = _
      rw [String.ofList_toList]
    | .arr [] =>
      rw [write, writeItems, he.flatMap (Text.forall_mem_of_all (by decide))]
      rfl
    | .arr (w :: more) =>
      have htext := write_arr_append (f := f) he w more rest
      have hlength := congrArg List.length htext
      simp only [List.length_append, List.length_cons] at hlength
      have ih := readItems_writeItems hf he (w :: more) nofun hv rest (by omega : _ ≤ fuel)
      obtain ⟨c, cs, hcs, hspace, hend⟩ := items_head he hv.1 more (']' :: rest)
      rw [hcs] at ih
      rw [htext, hcs, readValueWithin, skipSpace_cons hspace]
      split
      · rename_i heq
        exact absurd (List.cons.inj heq).1 hend
      · change (readItems limit fuel (c :: cs) >>= fun r => .ok (Json.arr r.1, r.2)) = _
        rw [ih]
        rfl
    | .obj [] =>
      rw [write, writeFields, he.flatMap (Text.forall_mem_of_all (by decide))]
      rfl
    | .obj ((k, w) :: more) =>
      have htext := write_obj_append (f := f) he k w more rest
      have hlength := congrArg List.length htext
      simp only [List.length_append, List.length_cons] at hlength
      have ih := readPairs_writeFields hf he ((k, w) :: more) nofun hv.2 rest (by omega : _ ≤ fuel)
      obtain ⟨cs, hcs⟩ := fields_head he hv.2.1 k more ('\x7d' :: rest)
      rw [hcs] at ih
      rw [htext, hcs, readValueWithin, skipSpace_cons rfl]
      change (readPairs limit fuel ('\x22' :: cs) >>= fun r => .ok (Json.obj (Fields.ofPairs r.1), r.2)) = _
      rw [ih]
      change Except.ok (Json.obj (Fields.ofPairs ((k, w) :: more)), rest) = _
      rw [Fields.ofPairs_of_nodup hv.1]

/-- Written items are read up to the bracket that closes them. -/
theorem readItems_writeItems (hf : f.IsReadable) (he : Respells e) (items : List Json) (hne : items ≠ [])
    (hitems : ItemsArePlainWithin limit items) {fuel : Nat} (rest : List Char)
    (hfuel : 2 * ((writeItems f items).flatMap e).length + 1 ≤ fuel) :
    readItems limit fuel ((writeItems f items).flatMap e ++ ']' :: rest) = .ok (items, rest) := by
  match items, fuel with
  | [], _ => exact absurd rfl hne
  | _, 0 => omega
  | v :: more, fuel + 1 =>
    have hlength := congrArg List.length (congrArg (List.flatMap e) (writeItems_cons f v more))
    rw [List.flatMap_append, List.length_append] at hlength
    have hends := ends_separated hf he more (writeItems f more) (by rintro c ⟨⟩; decide : Ends [']']) rest
    have hvalue := readValueWithin_write hf he v hitems.1 _ (fun _ => hends) (by omega : _ ≤ fuel)
    rw [writeItems_cons, List.flatMap_append, List.append_assoc, readItems, hvalue]
    change readOthers limit fuel v _ = _
    match more with
    | [] => rfl
    | next :: more =>
      obtain ⟨gap, hspace, htext⟩ :=
        separated_eq hf he (List.cons_ne_nil next more) (writeItems f (next :: more)) (']' :: rest)
      have hmore := congrArg List.length htext
      simp only [List.length_append, List.length_cons] at hmore
      have ih := readItems_writeItems hf he (next :: more) nofun hitems.2 rest (by omega : _ ≤ fuel)
      obtain ⟨c, cs, hcs, hhead, -⟩ := items_head he hitems.2.1 more (']' :: rest)
      have hskip : skipSpace (gap ++ ((writeItems f (next :: more)).flatMap e ++ ']' :: rest)) =
          (writeItems f (next :: more)).flatMap e ++ ']' :: rest := by
        rw [skipSpace_append hspace, hcs, skipSpace_cons hhead]
      rw [htext, readOthers, skipSpace_cons rfl]
      change (readItems limit fuel (skipSpace _) >>= fun r => .ok (v :: r.1, r.2)) = _
      rw [hskip, ih]
      rfl

/-- Written fields are read up to the brace that closes them. -/
theorem readPairs_writeFields (hf : f.IsReadable) (he : Respells e) (fields : List (String × Json))
    (hne : fields ≠ []) (hfields : FieldsArePlainWithin limit fields) {fuel : Nat} (rest : List Char)
    (hfuel : 2 * ((writeFields f fields).flatMap e).length ≤ fuel) :
    readPairs limit fuel ((writeFields f fields).flatMap e ++ '\x7d' :: rest) = .ok (fields, rest) := by
  match fields, fuel with
  | [], _ => exact absurd rfl hne
  | (k, v) :: more, fuel =>
    have hlength := congrArg List.length (congrArg (List.flatMap e) (writeFields_of_isPlain hfields.1 f k more))
    have hquotes := congrArg List.length (he.writeString f.ascii k [])
    simp only [List.flatMap_append, List.length_append, List.length_cons] at hlength hquotes
    match fuel with
    | 0 => omega
    | fuel + 1 =>
      have hends := ends_separated hf he more (writeFields f more) (by rintro c ⟨⟩; decide : Ends ['\x7d']) rest
      have hvalue := readValueWithin_write hf he v hfields.1 _ (fun _ => hends) (by omega : _ ≤ fuel)
      rw [writeFields_of_isPlain hfields.1, List.flatMap_append, List.flatMap_append, List.flatMap_append, List.append_assoc,
        List.append_assoc, List.append_assoc, readPairs_cons hf he hfields.1 k _ hvalue]
      match more with
      | [] => rfl
      | (k', v') :: more =>
        obtain ⟨gap, hspace, htext⟩ :=
          separated_eq hf he (List.cons_ne_nil (k', v') more) (writeFields f ((k', v') :: more)) ('\x7d' :: rest)
        have hmore := congrArg List.length htext
        simp only [List.length_append, List.length_cons] at hmore
        have ih := readPairs_writeFields hf he ((k', v') :: more) nofun hfields.2 rest (by omega : _ ≤ fuel)
        obtain ⟨cs, hcs⟩ := fields_head he hfields.2.1 k' more ('\x7d' :: rest)
        have hskip : skipSpace (gap ++ ((writeFields f ((k', v') :: more)).flatMap e ++ '\x7d' :: rest)) =
            (writeFields f ((k', v') :: more)).flatMap e ++ '\x7d' :: rest := by
          rw [skipSpace_append hspace, hcs, skipSpace_cons rfl]
        rw [htext, readMore, skipSpace_cons rfl]
        change (readPairs limit fuel (skipSpace _) >>= fun r => .ok ((k, v) :: r.1, r.2)) = _
        rw [hskip, ih]
        rfl

end

theorem readValue_write (hf : f.IsReadable) (he : Respells e) (v : Json) (hv : IsPlain v) {fuel : Nat}
    (rest : List Char) (hrest : IsNumber v → Ends rest) (hfuel : 2 * ((write f v).flatMap e).length ≤ fuel) :
    readValue fuel ((write f v).flatMap e ++ rest) = .ok (v, rest) :=
  readValueWithin_write hf he v ((isPlain_iff v).1 hv) rest hrest hfuel

/-- A document is read as it was written, also in another spelling. -/
theorem parseWithin_write (hf : f.IsReadable) (he : Respells e) {v : Json} (hv : IsPlainWithin limit v) :
    parseWithin limit ((write f v).flatMap e) = .ok v := by
  obtain ⟨c, cs, hc, hhead, -⟩ := he.head hv f
  have hskip : skipSpace ((write f v).flatMap e) = (write f v).flatMap e := by rw [hc, skipSpace_cons hhead]
  have hread := readValueWithin_write hf he v hv [] (fun _ => ends_nil)
    (by omega : _ ≤ 2 * ((write f v).flatMap e).length + 2)
  rw [List.append_nil] at hread
  rw [parseWithin, hskip, hread]
  rfl

/-- A written document is read as it was. -/
theorem parse?_render (hf : f.IsReadable) {v : Json} (hv : IsPlain v) :
    parse? (v.render f) = some v := by
  have hread := parseWithin_write hf respells_self ((isPlain_iff v).1 hv)
  rw [List.flatMap_singleton'] at hread
  rw [parse?, parse, render, String.toList_ofList, parseList, hread]
  rfl

mutual

/-- What is left of a document once it is written: days, moments and bytes are texts, pairs and sets are lists, and
every field has the name under which it stands. -/
def asWritten : Json → Json
  | arr items => arr (itemsAsWritten items)
  | obj fields => obj (fieldsAsWritten fields)
  | date d => str d.text
  | moment m => str m.documentText
  | bytes bs => str (String.ofList (Text.ofBytes bs))
  | pair a b => arr [asWritten a, asWritten b]
  | set members => arr (itemsAsWritten members)
  | keyed _ v => asWritten v
  | null => null
  | bool b => bool b
  | int n => int n
  | float x => float x
  | str s => str s

def itemsAsWritten : List Json → List Json
  | [] => []
  | v :: rest => asWritten v :: itemsAsWritten rest

def fieldsAsWritten : List (String × Json) → List (String × Json)
  | [] => []
  | (k, v) :: rest => (fieldName k v, asWritten v) :: fieldsAsWritten rest

end

theorem fieldName_asWritten (k : String) (v : Json) : fieldName k v.asWritten = k := by
  match v with
  | .keyed key v => exact fieldName_asWritten k v
  | .null | .bool _ | .int _ | .float _ | .str _ | .arr _ | .obj _ | .date _ | .moment _ | .bytes _ | .pair _ _
  | .set _ => rfl

mutual

/-- Nothing else is lost by writing. -/
theorem write_asWritten (f : Format) (v : Json) : write f v.asWritten = write f v := by
  match v with
  | .null | .bool _ | .int _ | .float _ | .str _ | .date _ | .moment _ | .bytes _ => rfl
  | .arr items => rw [asWritten, write, write, writeItems_asWritten]
  | .obj fields => rw [asWritten, write, write, writeFields_asWritten]
  | .pair a b =>
    have ha := write_asWritten f a
    have hb := write_asWritten f b
    simp [asWritten, write, writeItems, ha, hb]
  | .set members => rw [asWritten, write, write, writeItems_asWritten]
  | .keyed key v =>
    rw [asWritten, write]
    exact write_asWritten f v

theorem writeItems_asWritten (f : Format) (items : List Json) :
    writeItems f (itemsAsWritten items) = writeItems f items := by
  match items with
  | [] => rfl
  | v :: more =>
    have hmore : separated f (itemsAsWritten more) = separated f more := by
      cases more with
      | nil => rfl
      | cons next more => rfl
    rw [itemsAsWritten, writeItems_cons, writeItems_cons, write_asWritten f v, writeItems_asWritten f more, hmore]

theorem writeFields_asWritten (f : Format) (fields : List (String × Json)) :
    writeFields f (fieldsAsWritten fields) = writeFields f fields := by
  match fields with
  | [] => rfl
  | (k, v) :: more =>
    have hmore : separated f (fieldsAsWritten more) = separated f more := by
      cases more with
      | nil => rfl
      | cons next more => rfl
    rw [fieldsAsWritten, writeFields_cons, writeFields_cons, fieldName_asWritten, write_asWritten f v,
      writeFields_asWritten f more, hmore]

end

mutual

theorem asWritten_of_isPlain (v : Json) (hv : IsPlain v) : v.asWritten = v := by
  match v with
  | .null | .bool _ | .int _ | .float _ | .str _ => rfl
  | .arr items => rw [asWritten, itemsAsWritten_of_isPlain items hv]
  | .obj fields => rw [asWritten, fieldsAsWritten_of_isPlain fields hv.2]

theorem itemsAsWritten_of_isPlain (items : List Json) (hitems : ItemsArePlain items) :
    itemsAsWritten items = items := by
  match items with
  | [] => rfl
  | v :: more => rw [itemsAsWritten, asWritten_of_isPlain v hitems.1, itemsAsWritten_of_isPlain more hitems.2]

theorem fieldsAsWritten_of_isPlain (fields : List (String × Json)) (hfields : FieldsArePlain fields) :
    fieldsAsWritten fields = fields := by
  match fields with
  | [] => rfl
  | (k, v) :: more =>
    rw [fieldsAsWritten, fieldName_of_isPlain ((isPlain_iff v).1 hfields.1), asWritten_of_isPlain v hfields.1,
      fieldsAsWritten_of_isPlain more hfields.2]

end

end ConsentBanner.Json
