import NexaFx.Model.Sanitize

/-!
# NexaFx — sanitised texts carry no markup

Removing tags from left to right leaves no `<` before a `>`: a `<` stays only
when no `>` follows it any more. Neither the entities nor the white space that
go afterwards bring such a pair back, and a blank in place of `&nbsp;` does not
join what is around it to another one. So a second pass finds nothing to do.

Main result: `sanitizeText_stable`.
-/

namespace NexaFx

namespace Sanitize

open Replace

/-- No `<` is followed by a `>`. -/
def Tagless (s : List Char) : Prop := s.Pairwise fun a b => ¬ (a = '<' ∧ b = '>')

/-- `&nbsp;` does not occur, in any letter case. -/
def Entityless (s : List Char) : Prop :=
  ∀ t, t <:+: s → t.map Char.toLower ≠ "&nbsp;".toList

structure Clean (s : List Char) : Prop where
  tagless : Tagless s
  entityless : Entityless s
  start : ∀ c, s.head? = some c → Js.isSpace c = false
  «end» : ∀ c, s.getLast? = some c → Js.isSpace c = false

variable {s : List Char}

/-! ## The patterns -/

/-- What is no small letter is only its own small form. -/
theorem eq_of_toLower {c d : Char} (h : c.toLower = d) (hd : d.isLower = false) : c = d := by
  unfold Char.toLower at h
  split at h
  · rename_i hupper
    obtain ⟨hfrom, hto⟩ := hupper
    rw [ge_iff_le, UInt32.le_iff_toNat_le] at hfrom
    rw [UInt32.le_iff_toNat_le] at hto
    subst h
    have hfrom' : 65 ≤ c.val.toNat := hfrom
    have hto' : c.val.toNat ≤ 90 := hto
    have hval : (c.val + ('a'.val - 'A'.val)).toNat = c.val.toNat + 32 := by
      rw [UInt32.toNat_add]
      show (c.val.toNat + 32) % 2 ^ 32 = _
      omega
    delta Char.isLower at hd
    simp only [ge_iff_le, UInt32.le_iff_toNat_le, hval, Bool.and_eq_false_iff,
      decide_eq_false_iff_not] at hd
    have ha : ('a' : Char).val.toNat = 97 := rfl
    have hz : ('z' : Char).val.toNat = 122 := rfl
    omega
  · exact h

theorem word_some {w : List Char} {n : ℕ} (h : word w s = some n) :
    n = w.length ∧ (s.take n).map Char.toLower = w := by
  unfold word at h
  split at h
  · rename_i hmatch
    obtain rfl := Option.some.inj h
    exact ⟨rfl, hmatch⟩
  · simp at h

/-- A character of the word that is no small letter is in the text as it is. -/
theorem mem_of_word {w : List Char} {n : ℕ} (h : word w s = some n) {d : Char} (hd : d ∈ w)
    (hlower : d.isLower = false) : d ∈ s := by
  obtain ⟨-, hmatch⟩ := word_some h
  rw [← hmatch] at hd
  obtain ⟨c, hc, heq⟩ := List.mem_map.mp hd
  rw [← eq_of_toLower heq hlower]
  exact List.mem_of_mem_take hc

theorem tag_none (s : List Char) : tag ('<' :: s) = none ↔ '>' ∉ s := by
  simp only [tag, Option.map_eq_none_iff, List.findIdx?_eq_none_iff, decide_eq_false_iff_not]
  exact ⟨fun h hmem => h '>' hmem rfl, fun h x hx heq => h (heq ▸ hx)⟩

theorem scriptBody_some {n : ℕ} (h : scriptBody s = some n) : '>' ∈ s := by
  induction s generalizing n with
  | nil => simp [scriptBody] at h
  | cons c s ih =>
    unfold scriptBody at h
    split at h
    · rename_i hword
      exact mem_of_word hword (by decide) (by decide)
    · obtain ⟨m, hm, -⟩ := Option.map_eq_some_iff.mp h
      exact List.mem_cons_of_mem c (ih hm)

/-! ## Texts without tags -/

theorem Tagless.head {s : List Char} (h : Tagless ('<' :: s)) : '>' ∉ s :=
  fun hmem => (List.pairwise_cons.mp h).1 '>' hmem ⟨rfl, rfl⟩

theorem tag_of_tagless (h : Tagless s) : tag s = none := by
  unfold tag
  split
  · rename_i rest
    exact (tag_none rest).mpr h.head
  · rfl

theorem script_of_tagless (h : Tagless s) : script s = none := by
  unfold script
  split
  · rfl
  · rename_i n hword
    dsimp only
    split
    · rfl
    · rw [Option.map_eq_none_iff]
      by_contra hsome
      obtain ⟨m, hm⟩ := Option.ne_none_iff_exists'.mp hsome
      obtain ⟨hn, hmatch⟩ := word_some hword
      cases s with
      | nil => simp at hmatch
      | cons c rest =>
        have hlength : n = 7 := hn.trans (by decide)
        subst hlength
        rw [List.take_succ_cons, List.map_cons] at hmatch
        obtain rfl : c = '<' := eq_of_toLower (List.cons.inj hmatch).1 (by decide)
        exact h.head (List.mem_of_mem_drop (scriptBody_some hm))

theorem tagless_suffix {t : List Char} (h : Tagless s) (ht : t <:+ s) : Tagless t :=
  List.Pairwise.sublist ht.sublist h

/-- Removing the tags leaves none. -/
theorem tagless_replaceAll (s : List Char) : Tagless (replaceAll tag [] s) := by
  induction s using replaceAll_rec tag [] with
  | nil => exact List.Pairwise.nil
  | keep a s hm ih =>
    refine List.pairwise_cons.mpr ⟨fun b hb => ?_, ih⟩
    rintro ⟨rfl, rfl⟩
    -- this `<` has stayed because no `>` follows it
    have hmem := (mem_of_mem_replaceAll s hb).resolve_right List.not_mem_nil
    exact (tag_none s).mp hm hmem
  | matched a s n hm ih => exact ih

theorem tagless_nbsp (h : Tagless s) : Tagless (replaceAll nbsp [' '] s) := by
  refine pairwise_replaceAll (List.pairwise_singleton _ _) (fun a ha b hab => ?_)
    (fun b hb a hab => ?_) h
  · rw [List.mem_singleton.mp ha] at hab
    exact absurd hab.1 (by decide)
  · rw [List.mem_singleton.mp hb] at hab
    exact absurd hab.2 (by decide)

/-! ## Texts without entities -/

theorem nbsp_of_entityless (h : Entityless s) {t : List Char} (ht : t <:+ s) : nbsp t = none := by
  refine if_neg fun hmatch => h _ ?_ hmatch
  exact (List.take_prefix _ t).isInfix.trans ht.isInfix

/-- Replacing the entities by blanks leaves none. -/
theorem entityless_replaceAll (s : List Char) : Entityless (replaceAll nbsp [' '] s) := by
  have hread : ∀ t n, nbsp t = some n → ∃ x u, (x :: u) <+: t ∧ ' ' ∉ x :: u ∧
      ∀ t', (x :: u) <+: t' → nbsp t' ≠ none := by
    intro t n hn
    obtain ⟨hlength, hmatch⟩ := word_some hn
    cases htake : t.take n with
    | nil => simp [htake] at hmatch
    | cons x u =>
      refine ⟨x, u, htake ▸ List.take_prefix n t, fun hblank => ?_, fun t' ht' => ?_⟩
      · rw [htake] at hmatch
        have hlower : (' ' : Char).toLower ∈ "&nbsp;".toList := by
          rw [← hmatch]
          exact List.mem_map_of_mem hblank
        exact absurd hlower (by decide)
      · have hsame : t'.take "&nbsp;".toList.length = x :: u := by
          have hu : (x :: u).length = "&nbsp;".toList.length := by
            rw [← htake, ← hmatch, List.length_map]
          rw [← hu]
          exact (List.prefix_iff_eq_take.mp ht').symm
        rw [nbsp, word, hsame, ← htake, if_pos hmatch]
        exact Option.some_ne_none _
  intro t ⟨before, rest, ht⟩ hmatch
  rw [List.append_assoc] at ht
  have hnone := unmatched_replaceAll hread s (t ++ rest) ⟨before, ht⟩
  have hlength : t.length = "&nbsp;".toList.length := by rw [← hmatch, List.length_map]
  rw [nbsp, word, ← hlength, List.take_left, if_pos hmatch] at hnone
  exact Option.some_ne_none _ hnone

/-! ## Sanitised texts -/

/-- The passes on a text. -/
def passes (s : List Char) : List Char :=
  Js.trim (replaceAll nbsp [' '] (replaceAll tag [] (replaceAll script [] s)))

theorem clean_passes (s : List Char) : Clean (passes s) where
  tagless := List.Pairwise.sublist (Js.trim_infix _).sublist (tagless_nbsp (tagless_replaceAll _))
  entityless _ ht := entityless_replaceAll _ _ (ht.trans (Js.trim_infix _))
  start _ := Js.head_trim
  «end» _ := Js.getLast_trim

theorem passes_of_clean (h : Clean s) : passes s = s := by
  have hscript : replaceAll script [] s = s :=
    replaceAll_eq_self fun t ht => script_of_tagless (tagless_suffix h.tagless ht)
  have htag : replaceAll tag [] s = s :=
    replaceAll_eq_self fun t ht => tag_of_tagless (tagless_suffix h.tagless ht)
  have hnbsp : replaceAll nbsp [' '] s = s :=
    replaceAll_eq_self fun t ht => nbsp_of_entityless h.entityless ht
  rw [passes, hscript, htag, hnbsp]
  exact Js.trim_eq_self h.start h.end

/-- **A sanitised text** is clean, and stays as it is when it is sanitised
again. -/
theorem sanitizeText_stable (text : String) : Clean (sanitizeText (some text)).toList ∧
    sanitizeText (some (sanitizeText (some text))) = sanitizeText (some text) := by
  have hpasses (t : String) : sanitizeText (some t) = String.ofList (passes t.toList) := rfl
  have hlist : (sanitizeText (some text)).toList = passes text.toList := by
    rw [hpasses, String.toList_ofList]
  refine ⟨by rw [hlist]; exact clean_passes _, ?_⟩
  rw [hpasses (sanitizeText (some text)), hlist, passes_of_clean (clean_passes _)]
  rfl

/-- What is around a removed tag is not joined to another one. -/
example : sanitizeText (some " <<b>b>&NB&nbsp;SP;<a ") = "b>&NB SP;<a" := by decide +kernel

end Sanitize

end NexaFx
