import Mathlib.Data.List.Forall2
import ConsentBanner.Proofs.Asset.ImageTag

/-!
The images of markup, in order, and what becomes of them when their addresses are made absolute.
-/

namespace ConsentBanner.Asset

/-- The address of an image tag, from the text after its name: that of a source attribute that comes first. -/
def sourceOf? : List Char → Option (List Char)
  | ' ' :: 's' :: 'r' :: 'c' :: '=' :: '\x22' :: address => some (address.takeWhile (· != '\x22'))
  | _ => none

/-- The addresses of all image tags, in letters of either case. -/
def imageSources : List Char → List (Option (List Char))
  | [] => []
  | c :: cs =>
    match afterIgnoringCase? "<img".toList (c :: cs) with
    | some rest => sourceOf? rest :: imageSources cs
    | none => imageSources cs

/-- Markup whose images are known: the tags that begin like those of images are these, in this order, each with a body
that stands in a relation to what is known of it. An image follows the end of a tag whose last attribute has a value. -/
inductive Pictures {κ : Type} (R : κ → List Char → Prop) : List κ → List Char → Prop
  | nil : Pictures R [] []
  | char {ks : List κ} {c : Char} {cs : List Char} (hc : c ≠ '<') (h : Pictures R ks cs) : Pictures R ks (c :: cs)
  | tag {ks : List κ} {cs : List Char} (hcs : begins "img".toList cs = false) (h : Pictures R ks cs) :
      Pictures R ks ('<' :: cs)
  | image {k : κ} {ks : List κ} {body cs : List Char} (hbody : IsBody body) (hk : R k body) (h : Pictures R ks cs) :
      Pictures R (k :: ks) ('\x22' :: '>' :: '<' :: (imageStart ++ (body ++ '/' :: '>' :: cs)))

theorem img_mem_words : "img".toList ∈ words := by decide

namespace Pictures

variable {κ : Type} {R S : κ → List Char → Prop} {ks : List κ} {cs : List Char}

theorem chars {text : List Char} (htext : '<' ∉ text) (h : Pictures R ks cs) : Pictures R ks (text ++ cs) := by
  induction text with
  | nil => exact h
  | cons c text ih =>
    rw [List.mem_cons, not_or] at htext
    exact .char (Ne.symm htext.1) (ih htext.2)

theorem mono (hRS : ∀ k body, R k body → S k body) (h : Pictures R ks cs) : Pictures S ks cs := by
  induction h with
  | nil => exact .nil
  | char hc _ ih => exact .char hc ih
  | tag hcs _ ih => exact .tag hcs ih
  | image hbody hk _ ih => exact .image hbody (hRS _ _ hk) ih

end Pictures

section Sources

theorem IsBody.takeWhile_append {body : List Char} (h : IsBody body) (cs : List Char) :
    (body ++ cs).takeWhile (· != '\x22') = body.takeWhile (· != '\x22') := by
  rw [List.takeWhile_append, if_neg]
  intro hlength
  have hall := (List.takeWhile_prefix (· != '\x22')).eq_of_length hlength
  rw [List.takeWhile_eq_self_iff] at hall
  cases hall _ (List.mem_of_getLast? h.last)

theorem imageSources_append {text : List Char} (h : '<' ∉ text) (cs : List Char) :
    imageSources (text ++ cs) = imageSources cs := by
  induction text with
  | nil => rfl
  | cons c text ih =>
    rw [List.mem_cons, not_or] at h
    rw [List.cons_append, imageSources, afterIgnoringCase?_tag_of_ne (Ne.symm h.1)]
    exact ih h.2

/-- The addresses that are found in markup are those of its images. -/
theorem Pictures.sources {κ : Type} {R : κ → List Char → Prop} {ks : List κ} {cs : List Char} (h : Pictures R ks cs) :
    List.Forall₂ (fun k source => ∃ body, R k body ∧ source = some (body.takeWhile (· != '\x22'))) ks
      (imageSources cs) := by
  induction h with
  | nil => exact .nil
  | char hc _ ih =>
    rw [imageSources, afterIgnoringCase?_tag_of_ne hc]
    exact ih
  | @tag ks cs hcs _ ih =>
    rw [imageSources, afterIgnoringCase?_tag_of_other hcs]
    exact ih
  | @image k ks body cs hbody hk _ ih =>
    have hcopy : '<' ∉ imageStart ++ (body ++ ['/', '>']) := by
      rw [List.mem_append, List.mem_append, not_or, not_or]
      exact ⟨by decide, hbody.closed, by decide⟩
    have htext : imageStart ++ (body ++ '/' :: '>' :: cs) = imageStart ++ (body ++ ['/', '>']) ++ cs := by simp
    have hsome : afterIgnoringCase? "<img".toList ('<' :: (imageStart ++ (body ++ '/' :: '>' :: cs))) =
        some (' ' :: 's' :: 'r' :: 'c' :: '=' :: '\x22' :: (body ++ '/' :: '>' :: cs)) := rfl
    rw [imageSources, afterIgnoringCase?_tag_of_ne (by decide), imageSources, afterIgnoringCase?_tag_of_ne (by decide),
      imageSources, hsome]
    dsimp only
    rw [htext, imageSources_append hcopy, sourceOf?, hbody.takeWhile_append]
    exact .cons ⟨body, hk, rfl⟩ ih

end Sources

section Tags

variable {κ : Type} {R : κ → List Char → Prop} {ks : List κ} {cs : List Char} {accept : List Char → Bool}
  {base : List Char}

theorem turns_imageTag? : Turns (imageTag? accept base) := by
  intro cs written rest h
  unfold imageTag? at h
  split at h
  · rename_i c text ht
    split at h
    · obtain ⟨⟨before, url, after, rest'⟩, -, he⟩ := Option.map_eq_some_iff.1 h
      cases he
      change afterIgnoringCase? ('<' :: "img".toList) cs = some (c :: text) at ht
      obtain ⟨d, cs, rfl, hd, -⟩ := afterIgnoringCase?_cons.1 ht
      exact ⟨d, cs, '<', _, rfl, rfl, by rw [eq_of_matchesLetter_lt hd]; decide, by decide⟩
    · cases h
  · cases h

/-- Replacing addresses in image tags keeps the images, with redone bodies. -/
theorem Pictures.replaceTags (hinside : StaysInside accept) (hbase : '<' ∉ base) (h : Pictures R ks cs) :
    Pictures (fun k redone => ∃ body, R k body ∧ Redone accept base body redone) ks
      (replaceFrom (imageTag? accept base) 0 cs) := by
  induction h with
  | nil => exact .nil
  | char hc _ ih =>
    rw [replaceFrom, imageTag?_of_ne hc]
    exact .char hc ih
  | @tag ks cs hcs _ ih =>
    rw [replaceFrom, imageTag?_of_other hcs]
    refine .tag ?_ ih
    rw [(turns_imageTag?.alike_replaceFrom cs).begins img_mem_words, hcs]
  | @image k ks body cs hbody hk _ ih =>
    obtain ⟨redone, hreplace, hredone⟩ := @replaceFrom_image accept base body cs hinside hbase hbody
    rw [replaceFrom, imageTag?_of_ne (by decide), replaceFrom, imageTag?_of_ne (by decide)]
    dsimp only
    rw [hreplace]
    exact .image hredone.isBody ⟨body, hk, hredone⟩ ih

end Tags

section Backgrounds

variable {base : List Char}

/-- A stretch of markup, before some rest of it, in which no quotation mark ends the last attribute of a tag. -/
inductive Quiet (rest : List Char) : List Char → Prop
  | nil : Quiet rest []
  | char {c : Char} {stretch : List Char} (hc : c ≠ '\x22') (h : Quiet rest stretch) : Quiet rest (c :: stretch)
  | mark {stretch : List Char} (hopen : ¬ ['>', '<'] <+: stretch ++ rest) (hempty : ¬ ['/', '>'] <+: stretch ++ rest)
      (h : Quiet rest stretch) : Quiet rest ('\x22' :: stretch)

namespace Quiet

variable {rest stretch : List Char}

theorem append {front : List Char} (hfront : Quiet (stretch ++ rest) front) (h : Quiet rest stretch) :
    Quiet rest (front ++ stretch) := by
  induction hfront with
  | nil => exact h
  | char hc _ ih => exact .char hc ih
  | mark hopen hempty _ ih =>
    rw [← List.append_assoc] at hopen hempty
    exact .mark hopen hempty ih

theorem of_not_mem (h : '\x22' ∉ stretch) : Quiet rest stretch := by
  induction stretch with
  | nil => exact .nil
  | cons c stretch ih =>
    rw [List.mem_cons, not_or] at h
    exact .char (Ne.symm h.1) (ih h.2)

theorem of_isMark (h : IsMark stretch) (hopen : ¬ ['>', '<'] <+: rest) (hempty : ¬ ['/', '>'] <+: rest) :
    Quiet rest stretch := by
  obtain rfl | ⟨c, rfl, hc⟩ := h
  · exact .nil
  · by_cases hquote : c = '\x22'
    · subst hquote
      exact .mark hopen hempty .nil
    · exact .char hquote .nil

/-- No image begins in a quiet stretch, so that those of a text are those of the rest. -/
theorem pictures {κ : Type} {R : κ → List Char → Prop} {ks : List κ} (h : Quiet rest stretch)
    (hp : Pictures R ks (stretch ++ rest)) : Pictures R ks rest := by
  induction h with
  | nil => exact hp
  | char hc _ ih =>
    generalize htext : _ ++ rest = text at hp
    cases hp with
    | nil => cases htext
    | char _ hp =>
      cases htext
      exact ih hp
    | tag _ hp =>
      cases htext
      exact ih hp
    | image =>
      simp only [List.cons_append, List.cons.injEq] at htext
      exact (hc htext.1).elim
  | mark hopen _ _ ih =>
    generalize htext : _ ++ rest = text at hp
    cases hp with
    | nil => cases htext
    | char _ hp =>
      cases htext
      exact ih hp
    | tag => cases htext
    | image =>
      simp only [List.cons_append, List.cons.injEq] at htext
      rw [htext.2] at hopen
      exact (hopen ⟨_, rfl⟩).elim

/-- A quiet stretch that begins in a body ends in it. -/
theorem in_body (h : Quiet rest stretch) {body cs : List Char} (hlast : body.getLast? = some '\x22')
    (htext : body ++ '/' :: '>' :: cs = stretch ++ rest) :
    ∃ after, body = stretch ++ after ∧ rest = after ++ '/' :: '>' :: cs ∧ after.getLast? = some '\x22' := by
  induction h generalizing body with
  | nil => exact ⟨body, rfl, htext.symm, hlast⟩
  | @char c stretch hc _ ih =>
    match body with
    | [] => cases hlast
    | [d] =>
      cases hlast
      simp only [List.cons_append, List.cons.injEq] at htext
      exact (hc htext.1.symm).elim
    | d :: e :: body =>
      rw [List.getLast?_cons_cons] at hlast
      simp only [List.cons_append, List.cons.injEq] at htext
      obtain ⟨rfl, htext⟩ := htext
      obtain ⟨after, hbody, hrest, hafter⟩ := ih hlast htext
      exact ⟨after, by rw [hbody, List.cons_append], hrest, hafter⟩
  | @mark stretch _ hempty _ ih =>
    match body with
    | [] => cases hlast
    | [d] =>
      simp only [List.cons_append, List.nil_append, List.cons.injEq] at htext
      rw [← htext.2] at hempty
      exact (hempty ⟨cs, rfl⟩).elim
    | d :: e :: body =>
      rw [List.getLast?_cons_cons] at hlast
      simp only [List.cons_append, List.cons.injEq] at htext
      obtain ⟨rfl, htext⟩ := htext
      obtain ⟨after, hbody, hrest, hafter⟩ := ih hlast htext
      exact ⟨after, by rw [hbody, List.cons_append], hrest, hafter⟩

end Quiet

theorem exists_of_isRooted {url : List Char} (h : isRooted url = true) :
    ∃ x y rest, url = x :: y :: rest ∧ x ≠ '>' ∧ y ≠ '>' := by
  have hnext : ∀ p ∈ ['/', 't', 'i', 'a'], matchesLetter p '>' = false := Text.forall_mem_of_all (by decide)
  have hfolder (p : Char) (folder : List Char) (hp : p ∈ ['/', 't', 'i', 'a']) (rest : List Char)
      (hsome : afterIgnoringCase? ('/' :: p :: folder) url = some rest) :
      ∃ x y rest, url = x :: y :: rest ∧ x ≠ '>' ∧ y ≠ '>' := by
    obtain ⟨x, _, rfl, hx, hsome⟩ := afterIgnoringCase?_cons.1 hsome
    obtain ⟨y, cs, rfl, hy, -⟩ := afterIgnoringCase?_cons.1 hsome
    refine ⟨x, y, cs, rfl, ?_, ?_⟩
    · rintro rfl
      cases hx
    · rintro rfl
      rw [hnext p hp] at hy
      cases hy
  simp only [isRooted, List.any_cons, List.any_nil, Bool.or_false, Bool.or_eq_true] at h
  obtain h | h | h := h
  all_goals
    split at h
    · rename_i rest hsome
      exact hfolder _ _ (by decide) rest hsome
    · cases h

/-- The stretch of a background image in pieces: up to its address, the address, and a mark and a bracket. -/
theorem BackgroundAt.span {url rest text : List Char} (h : BackgroundAt url rest text) :
    ∃ b front mark, text = b :: (front ++ (url ++ (mark ++ ')' :: rest))) ∧ b ∈ ['b', 'B'] ∧ '\x22' ∉ url ∧
      Quiet (url ++ (mark ++ ')' :: rest)) (b :: front) ∧ Quiet rest (b :: (front ++ (url ++ (mark ++ [')'])))) ∧
      Breaks (mark ++ ')' :: rest) := by
  cases h with
  | @mk b p before mark mark' hb hp hbefore hurl hrooted hmark hmark' =>
    have hplain (c l : Char) (hl : matchesLetter l '\x22' = false) (hc : matchesLetter l c = true) : c ≠ '\x22' := by
      rintro rfl
      rw [hl] at hc
      cases hc
    obtain ⟨x, y, url', rfl, hx, hy⟩ := exists_of_isRooted hrooted
    have hfront : Quiet (x :: y :: url' ++ (mark' ++ ')' :: rest)) (b :: (before ++ p :: mark)) := by
      have hopen : ¬ ['>', '<'] <+: x :: y :: url' ++ (mark' ++ ')' :: rest) := by
        rw [List.cons_append, List.cons_prefix_cons]
        exact fun h => hx h.1.symm
      have hempty : ¬ ['/', '>'] <+: x :: y :: url' ++ (mark' ++ ')' :: rest) := by
        rw [List.cons_append, List.cons_append, List.cons_prefix_cons, List.cons_prefix_cons]
        exact fun h => hy h.2.1.symm
      have hbegin : Quiet (p :: mark ++ (x :: y :: url' ++ (mark' ++ ')' :: rest))) before := .of_not_mem hbefore
      exact .char (hplain b 'b' rfl hb) (hbegin.append (.char (hplain p '(' rfl hp) (.of_isMark hmark hopen hempty)))
    refine ⟨b, before ++ p :: mark, mark', by simp, mem_of_matchesLetter_b hb, hurl, hfront, ?_, ?_⟩
    · have hopen : ¬ ['>', '<'] <+: [')'] ++ rest := by simp
      have hempty : ¬ ['/', '>'] <+: [')'] ++ rest := by simp
      have hend : Quiet rest (mark' ++ [')']) := (Quiet.of_isMark hmark' hopen hempty).append (.of_not_mem (by decide))
      have hurl' : Quiet rest (x :: y :: url' ++ (mark' ++ [')'])) := Quiet.append (.of_not_mem hurl) hend
      have hall : Quiet rest (b :: (before ++ p :: mark) ++ (x :: y :: url' ++ (mark' ++ [')']))) :=
        Quiet.append (by simpa using hfront) hurl'
      simpa using hall
    · obtain rfl | ⟨c, rfl, hc⟩ := hmark'
      · exact breaks_char (by decide) rest
      · refine breaks_char ?_ _
        rw [isQuotationMark_iff] at hc
        obtain rfl | rfl := hc
        · decide
        · decide

/-- The tags of an address stay what they are when the text after it is exchanged. -/
theorem Pictures.graft {κ : Type} {R S : κ → List Char → Prop} {ks js : List κ} {url text text' : List Char}
    (hurl : '\x22' ∉ url) (htext : Breaks text) (htext' : Breaks text') (h : Pictures R ks (url ++ text))
    (h' : Pictures S js text') : Pictures S js (url ++ text') := by
  induction url generalizing ks with
  | nil => exact h'
  | cons c url ih =>
    rw [List.mem_cons, not_or] at hurl
    rw [List.cons_append] at h ⊢
    generalize hcs : url ++ text = cs at h
    cases h with
    | char hc h => exact .char hc (ih hurl.2 (hcs ▸ h))
    | tag himg h =>
      subst hcs
      refine .tag ?_ (ih hurl.2 h)
      rw [begins_append_of_breaks img_mem_words List.suffix_rfl _ htext] at himg
      rw [begins_append_of_breaks img_mem_words List.suffix_rfl _ htext', himg]
    | image => exact (hurl.1 rfl).elim

theorem turns_background? : Turns (background? base) := by
  intro cs written rest h
  obtain ⟨url, rfl, hat⟩ := background?_eq_some h
  obtain ⟨b, front, mark, rfl, hb, -⟩ := hat.span
  exact ⟨b, _, 'b', _, rfl, rfl, List.mem_cons_of_mem '<' hb, by decide⟩

theorem background?_of_not_mem {c : Char} (hc : c ∉ ['b', 'B']) (cs : List Char) :
    background? base (c :: cs) = none := by
  rw [Option.eq_none_iff_forall_ne_some]
  rintro ⟨written, rest⟩ h
  obtain ⟨url, -, hat⟩ := background?_eq_some h
  obtain ⟨b, front, mark, ⟨⟩, hb, -⟩ := hat.span
  exact hc hb

theorem replaceFrom_of_none {c : Char} {cs : List Char} (h : background? base (c :: cs) = none) :
    replaceFrom (background? base) 0 (c :: cs) = c :: replaceFrom (background? base) 0 cs := by
  rw [replaceFrom, h]

theorem replaceFrom_tagEnd (cs : List Char) : replaceFrom (background? base) 0 ('/' :: '>' :: cs) =
    '/' :: '>' :: replaceFrom (background? base) 0 cs := by
  rw [replaceFrom_of_none (background?_of_not_mem (by decide) _),
    replaceFrom_of_none (background?_of_not_mem (by decide) _)]

theorem replaceFrom_imageStart (text : List Char) :
    replaceFrom (background? base) 0 ('\x22' :: '>' :: '<' :: (imageStart ++ text)) =
      '\x22' :: '>' :: '<' :: (imageStart ++ replaceFrom (background? base) 0 text) := by
  have hletter : ∀ c ∈ '\x22' :: '>' :: '<' :: imageStart, c ∉ ['b', 'B'] := Text.forall_mem_of_all (by decide)
  exact replaceFrom_copy (fun c hc cs => background?_of_not_mem (hletter c hc) cs) text

/-- A background that begins in the body of an image tag ends in it, and what is written for it opens no tag. -/
theorem background?_in_body (hbase : '<' ∉ base) {body cs written rest : List Char} (hbody : IsBody body)
    (hfound : background? base (body ++ '/' :: '>' :: cs) = some (written, rest)) :
    ∃ after, after.length < body.length ∧ IsBody after ∧ '<' ∉ written ∧
      replaceFrom (background? base) 0 (body ++ '/' :: '>' :: cs) =
        written ++ replaceFrom (background? base) 0 (after ++ '/' :: '>' :: cs) ∧
      ∀ after', Alike body (written ++ after') := by
  obtain ⟨url, hwritten, hat⟩ := background?_eq_some hfound
  obtain ⟨b, front, mark, htext, hb, -, -, hquiet, -⟩ := hat.span
  obtain ⟨after, rfl, rfl, hafter⟩ := hquiet.in_body hbody.last (by simpa using htext)
  have hclosed := hbody.closed
  simp only [List.cons_append, List.mem_cons, List.mem_append, not_or] at hclosed
  obtain ⟨-, ⟨-, hurl, -⟩, hclosed⟩ := hclosed
  have hstretch : b :: (front ++ (url ++ (mark ++ [')']))) ++ after ++ '/' :: '>' :: cs =
      b :: (front ++ (url ++ mark)) ++ ')' :: (after ++ '/' :: '>' :: cs) := by simp
  refine ⟨after, ?_, ⟨hclosed, hafter⟩, ?_, replaceFrom_stretch hfound hstretch, fun after' => ?_⟩
  · rw [List.length_append, List.length_cons]
    omega
  · simp only [hwritten, List.mem_append, not_or]
    exact ⟨⟨⟨by decide, hbase⟩, hurl⟩, by decide⟩
  · obtain ⟨_, _, d, _, -, rfl, -, hd⟩ := turns_background? hfound
    exact .turn_at (List.mem_cons_of_mem '<' hb) hd _ _

/-- Addresses of backgrounds are replaced inside the body of an image tag and after it. -/
theorem replaceFrom_body (hbase : '<' ∉ base) {body : List Char} (hbody : IsBody body) (cs : List Char) :
    ∃ body', replaceFrom (background? base) 0 (body ++ '/' :: '>' :: cs) =
      body' ++ '/' :: '>' :: replaceFrom (background? base) 0 cs ∧ IsBody body' ∧ Alike body body' := by
  -- After a background the replacement goes on in what is left of the body, so the induction is on the length.
  induction hn : body.length using Nat.strongRecOn generalizing body with
  | ind n ih =>
    cases hfound : background? base (body ++ '/' :: '>' :: cs) with
    | none =>
      match body with
      | [] => cases hbody.last
      | [_] =>
        cases hbody.last
        refine ⟨['\x22'], ?_, hbody, .same _⟩
        rw [List.singleton_append] at hfound ⊢
        rw [replaceFrom_of_none hfound, replaceFrom_tagEnd]
        rfl
      | c :: d :: body =>
        obtain ⟨hc, hbody⟩ := hbody.of_cons_cons
        obtain ⟨body', hreplace, hbody', halike⟩ := ih _ (by rw [← hn]; exact Nat.lt_succ_self _) hbody rfl
        refine ⟨c :: body', ?_, IsBody.append (by simpa using hc.symm : '<' ∉ [c]) hbody', halike.cons c⟩
        rw [List.cons_append] at hfound ⊢
        rw [replaceFrom_of_none hfound, hreplace, List.cons_append]
    | some found =>
      obtain ⟨after, hlength, hafter, hwritten, hstretch, halike⟩ := background?_in_body hbase hbody hfound
      obtain ⟨after', hreplace, hbody', -⟩ := ih after.length (hn ▸ hlength) hafter rfl
      refine ⟨found.1 ++ after', ?_, hbody'.append hwritten, halike after'⟩
      rw [hstretch, hreplace, List.append_assoc]

variable {κ : Type} {R : κ → List Char → Prop} {ks : List κ} {cs : List Char}

/-- The images of a text that begins with a background are those after it, and writing the background anew adds none. -/
theorem Pictures.of_background {S : κ → List Char → Prop} {written rest : List Char} (hbase : '<' ∉ base)
    (hfound : background? base cs = some (written, rest)) (h : Pictures R ks cs) :
    rest.length < cs.length ∧ replaceFrom (background? base) 0 cs = written ++ replaceFrom (background? base) 0 rest ∧
      Pictures R ks rest ∧ ∀ text, Pictures S ks text → Pictures S ks (written ++ text) := by
  obtain ⟨url, rfl, hat⟩ := background?_eq_some hfound
  obtain ⟨b, front, mark, rfl, -, hurl, hfront, hquiet, hbreaks⟩ := hat.span
  have hstretch : b :: (front ++ (url ++ (mark ++ ')' :: rest))) = b :: (front ++ (url ++ mark)) ++ ')' :: rest := by
    simp
  refine ⟨?_, replaceFrom_stretch hfound hstretch, hquiet.pictures (by simpa using h), fun text htext => ?_⟩
  · simp only [List.length_cons, List.length_append]
    omega
  · have haddress : Pictures R ks (url ++ (mark ++ ')' :: rest)) := hfront.pictures h
    have hend : '<' ∉ ['\x27', ')'] := by decide
    have hbegin : '<' ∉ "background-image: url('".toList ++ base := by
      rw [List.mem_append, not_or]
      exact ⟨by decide, hbase⟩
    have hgraft := Pictures.graft hurl hbreaks (breaks_char (by decide) (')' :: text)) haddress (htext.chars hend)
    have hwritten : "background-image: url('".toList ++ base ++ url ++ "')".toList ++ text =
        "background-image: url('".toList ++ base ++ (url ++ (['\x27', ')'] ++ text)) := by
      rw [List.append_assoc, List.append_assoc]
      rfl
    rw [hwritten]
    exact hgraft.chars hbegin

/-- Replacing addresses of backgrounds keeps the images, with bodies that begin as before. -/
theorem Pictures.replaceBackgrounds (hbase : '<' ∉ base) (h : Pictures R ks cs) :
    Pictures (fun k body' => ∃ body, R k body ∧ Alike body body') ks (replaceFrom (background? base) 0 cs) := by
  induction hn : cs.length using Nat.strongRecOn generalizing ks cs with
  | ind n ih =>
    cases hfound : background? base cs with
    | none =>
      cases h with
      | nil => exact .nil
      | char hc h =>
        rw [replaceFrom_of_none hfound]
        exact .char hc (ih _ (by rw [← hn]; exact Nat.lt_succ_self _) h rfl)
      | @tag _ cs himg h =>
        rw [replaceFrom_of_none hfound]
        refine .tag ?_ (ih _ (by rw [← hn]; exact Nat.lt_succ_self _) h rfl)
        rw [(turns_background?.alike_replaceFrom cs).begins img_mem_words, himg]
      | @image k ks body cs hbody hk h =>
        obtain ⟨body', hreplace, hbody', halike⟩ := replaceFrom_body hbase hbody cs
        have hlength : cs.length < n := by
          rw [← hn]
          simp only [List.length_cons, List.length_append]
          omega
        rw [replaceFrom_imageStart, hreplace]
        exact .image hbody' ⟨body, hk, halike⟩ (ih _ hlength h rfl)
    | some found =>
      obtain ⟨hlength, hstretch, hrest, hwritten⟩ := h.of_background hbase hfound
      rw [hstretch]
      exact hwritten _ (ih _ (hn ▸ hlength) hrest rfl)

end Backgrounds

section Absolute

/-- The starts of absolute addresses. -/
def absoluteStarts : List (List Char) := ["http://", "https://", "data:"].map String.toList

/-- Whether a text begins like an absolute address. -/
def startsAbsolute (cs : List Char) : Bool := absoluteStarts.any (·.isPrefixOf cs)

theorem isAbsolute_eq (url : String) : isAbsolute url = startsAbsolute url.toList := by
  rw [isAbsolute, startsAbsolute, absoluteStarts, List.any_map]
  rfl

theorem mem_words_of_absoluteStarts : ∀ start ∈ absoluteStarts, start ∈ words := by decide

theorem startsAbsolute_mono {base cs : List Char} (h : startsAbsolute base = true) (hbase : base <+: cs) :
    startsAbsolute cs = true := by
  rw [startsAbsolute, List.any_eq_true] at h ⊢
  obtain ⟨start, hstart, h⟩ := h
  rw [List.isPrefixOf_iff_prefix] at h
  exact ⟨start, hstart, List.isPrefixOf_iff_prefix.2 (h.trans hbase)⟩

/-- Whether a text begins like an absolute address is seen from any beginning of it that a word cannot leave. -/
theorem startsAbsolute_takeWhile {p : Char → Bool} (h : ∀ start ∈ absoluteStarts, start.all p = true)
    (cs : List Char) : startsAbsolute (cs.takeWhile p) = startsAbsolute cs := by
  have hword (word : List Char) (hword : word.all p = true) (cs : List Char) :
      word.isPrefixOf (cs.takeWhile p) = word.isPrefixOf cs := by
    induction word generalizing cs with
    | nil => simp
    | cons d word ih =>
      rw [List.all_cons, Bool.and_eq_true] at hword
      cases cs with
      | nil => rfl
      | cons c cs =>
        by_cases hd : d = c
        · subst hd
          rw [List.takeWhile_cons, hword.1, if_pos rfl, List.isPrefixOf_cons_cons, List.isPrefixOf_cons_cons,
            ih hword.2]
        · have hne : (d == c) = false := beq_eq_false_iff_ne.2 hd
          rw [List.isPrefixOf_cons_cons, hne, Bool.false_and, List.takeWhile_cons]
          split
          · rw [List.isPrefixOf_cons_cons, hne, Bool.false_and]
          · rfl
  rw [startsAbsolute, startsAbsolute, Bool.eq_iff_iff, List.any_eq_true, List.any_eq_true]
  exact exists_congr fun start => and_congr_right fun hstart => by rw [hword start (h start hstart)]

theorem Alike.startsAbsolute {cs ds : List Char} (h : Alike cs ds) :
    Asset.startsAbsolute ds = Asset.startsAbsolute cs := by
  rw [Asset.startsAbsolute, Asset.startsAbsolute, Bool.eq_iff_iff, List.any_eq_true, List.any_eq_true]
  refine exists_congr fun start => and_congr_right fun hstart => ?_
  rw [h.isPrefixOf (mem_words_of_absoluteStarts start hstart)]

/-- Absolute addresses are not relative. -/
theorem not_isRelative_of_startsAbsolute {cs : List Char} (h : startsAbsolute cs = true) :
    isRelative (untilMark cs) = false := by
  have hscheme : ∀ start ∈ absoluteStarts, ∃ word ∈ ["/", "http:", "https:", "data:"].map String.toList,
      word ∈ words ∧ word <+: start := by decide
  rw [startsAbsolute, List.any_eq_true] at h
  obtain ⟨start, hstart, h⟩ := h
  obtain ⟨word, hword, hmem, hstarts⟩ := hscheme start hstart
  rw [List.isPrefixOf_iff_prefix] at h
  rw [Bool.eq_false_iff, ne_eq, isRelative_iff, not_and]
  intro _ hall
  have hbegins := begins_of_isPrefixOf (List.isPrefixOf_iff_prefix.2 (hstarts.trans h))
  rw [← begins_untilMark hmem, hall word hword] at hbegins
  cases hbegins

theorem staysInside_isRooted : StaysInside isRooted := by
  intro url h
  obtain ⟨x, y, rest, rfl, -, hy⟩ := exists_of_isRooted h
  refine ⟨List.cons_ne_nil _ _, ?_⟩
  rw [List.cons_prefix_cons, List.cons_prefix_cons]
  exact fun h => hy h.2.1.symm

theorem staysInside_isRelative : StaysInside isRelative := by
  intro url h
  rw [isRelative_iff] at h
  obtain ⟨hne, hall⟩ := h
  refine ⟨hne, ?_⟩
  rintro ⟨rest, rfl⟩
  cases hall ['/'] (by decide)

variable {κ : Type} {R : κ → List Char → Prop} {ks : List κ} {base cs : List Char}

/-- An address is made absolute exactly if it is under a folder of stored images or relative. -/
theorem Redone.startsAbsolute_iff {body rooted between redone : List Char} (hbase : startsAbsolute base = true)
    (hrooted : Redone isRooted base body rooted) (halike : Alike rooted between)
    (hrelative : Redone isRelative (base ++ ['/']) between redone) :
    startsAbsolute redone = true ↔
      isRooted (untilMark body) = true ∨ isRelative (untilMark body) = true ∨ startsAbsolute body = true := by
  cases hr : isRooted (untilMark body) with
  | true =>
    have habsolute : startsAbsolute between = true := by
      rw [halike.startsAbsolute]
      exact startsAbsolute_mono hbase (hrooted.based hr)
    have hkept := hrelative.alike (not_isRelative_of_startsAbsolute habsolute)
    rw [hkept.startsAbsolute, habsolute]
    simp
  | false =>
    have hbody := hrooted.alike hr
    have hsame : isRelative (untilMark between) = isRelative (untilMark body) := by
      rw [halike.isRelative_untilMark, hbody.isRelative_untilMark]
    cases hrel : isRelative (untilMark body) with
    | true =>
      rw [hrel] at hsame
      rw [startsAbsolute_mono hbase ((List.prefix_append base ['/']).trans (hrelative.based hsame))]
      simp
    | false =>
      rw [hrel] at hsame
      rw [(hrelative.alike hsame).startsAbsolute, halike.startsAbsolute, hbody.startsAbsolute]
      simp

/-- The images of markup after their addresses were made absolute: the same ones, and which of their addresses are
absolute. -/
theorem Pictures.absoluteList (hbase : startsAbsolute base = true) (hopen : '<' ∉ base) (h : Pictures R ks cs) :
    Pictures (fun k redone => ∃ body, R k body ∧ (startsAbsolute redone = true ↔
      isRooted (untilMark body) = true ∨ isRelative (untilMark body) = true ∨ startsAbsolute body = true)) ks
      (Asset.absoluteList base cs) := by
  have hslash : '<' ∉ base ++ ['/'] := by
    rw [List.mem_append, not_or]
    exact ⟨hopen, by decide⟩
  refine Pictures.mono ?_ (((h.replaceTags staysInside_isRooted hopen).replaceBackgrounds hopen).replaceTags
    staysInside_isRelative hslash)
  rintro k redone ⟨between, ⟨rooted, ⟨body, hbody, hrooted⟩, halike⟩, hrelative⟩
  exact ⟨body, hbody, Redone.startsAbsolute_iff hbase hrooted halike hrelative⟩

end Absolute

section Unchanged

variable {accept : List Char → Bool} {base cs : List Char}

theorem replaceFrom_eq_self {found? : List Char → Option (List Char × List Char)}
    (h : ∀ c rest, c :: rest <:+ cs → found? (c :: rest) = none) : replaceFrom found? 0 cs = cs := by
  induction cs with
  | nil => rfl
  | cons c cs ih =>
    rw [replaceFrom, h c cs List.suffix_rfl]
    dsimp only
    rw [ih fun d rest hrest => h d rest (hrest.trans (List.suffix_cons c cs))]

/-- Without images no address in an image tag is replaced. -/
theorem Pictures.replaceFrom_nil {κ : Type} {R : κ → List Char → Prop} {ks : List κ} (h : Pictures R ks cs)
    (hks : ks = []) : replaceFrom (imageTag? accept base) 0 cs = cs := by
  induction h with
  | nil => rfl
  | char hc _ ih =>
    rw [replaceFrom, imageTag?_of_ne hc]
    dsimp only
    rw [ih hks]
  | tag hcs _ ih =>
    rw [replaceFrom, imageTag?_of_other hcs]
    dsimp only
    rw [ih hks]
  | image => cases hks

theorem eq_of_matchesLetter_bracket {c : Char} (h : matchesLetter '(' c = true) : c = '(' :=
  List.mem_singleton.1
    (mem_of_matchesLetter (List.mem_singleton_self _) (by decide) (Text.forall_mem_of_all (by decide)) h)

theorem background?_of_bracket (h : '(' ∉ cs) : background? base cs = none := by
  rw [Option.eq_none_iff_forall_ne_some]
  rintro ⟨written, rest⟩ hfound
  obtain ⟨url, -, hat⟩ := background?_eq_some hfound
  cases hat with
  | mk _ hp =>
    rw [eq_of_matchesLetter_bracket hp] at h
    simp at h

/-- Markup without images and without brackets stays as it is. -/
theorem Pictures.absoluteList_eq_self {κ : Type} {R : κ → List Char → Prop} (h : Pictures R [] cs)
    (hbracket : '(' ∉ cs) : Asset.absoluteList base cs = cs := by
  have hbackground : replaceFrom (background? base) 0 cs = cs := by
    apply replaceFrom_eq_self
    intro c rest hrest
    apply background?_of_bracket
    intro hmem
    exact hbracket (hrest.subset hmem)
  rw [Asset.absoluteList, h.replaceFrom_nil rfl, hbackground, h.replaceFrom_nil rfl]

end Unchanged

end ConsentBanner.Asset
