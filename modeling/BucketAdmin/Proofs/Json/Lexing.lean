import BucketAdmin.Proofs.Json.Cost
import BucketAdmin.Proofs.Json.Grammar

/-!
# Texts of tokens

The scanner leaves behind it the texts of the tokens it has cut (`Lexed`), and the beginning of one
more (`Traced`). So a text that scans without a fault is made of texts of its tokens, with blanks
between (`lexed_tokens`).
-/

namespace BucketAdmin.Json

open Token (Scanner Mark)
open Token.Scanner (push)

/-! ## Tokens -/

namespace Token

/-- The bytes are a text of the token. -/
inductive Text : Token → Bytes → Prop
  | mark {b : UInt8} {t : Token} (h : Mark b t) : Text t [b]
  | null : Text .null [0x6E, 0x75, 0x6C, 0x6C]
  | bool_true : Text (.bool true) [0x74, 0x72, 0x75, 0x65]
  | bool_false : Text (.bool false) [0x66, 0x61, 0x6C, 0x73, 0x65]
  | number {raw : Bytes} (h : IsNumber raw) : Text (.number raw) raw
  | string {raw : Bytes} (h : IsText raw) : Text (.string raw) (0x22 :: raw ++ [0x22])

/-- The bytes are texts of the tokens, latest first, with blanks between. -/
inductive Lexed : List Token → Bytes → Prop
  | nil : Lexed [] []
  | next {done : List Token} {bs w text : Bytes} {t : Token} (h : Lexed done bs) (hw : IsBlank w)
      (ht : Text t text) : Lexed (t :: done) (bs ++ w ++ text)

/-! ### Numbers -/

/-- The bytes lead to a part of a number. -/
inductive Begun : Part → Bytes → Prop
  | sign : Begun .sign [0x2D]
  | zero {n : Bytes} (h : IsInteger n) : Begun .zero n
  | whole {d : UInt8} {ds : Bytes} (hd : d ≠ 0x30) (h : ∀ b ∈ d :: ds, isDigit b = true) :
      Begun .whole (d :: ds)
  | minus {d : UInt8} {ds : Bytes} (hd : d ≠ 0x30) (h : ∀ b ∈ d :: ds, isDigit b = true) :
      Begun .whole (0x2D :: d :: ds)
  | point {n : Bytes} (h : IsInteger n) : Begun .point (n ++ [0x2E])
  | fraction {n ds : Bytes} (h : IsInteger n) (hds : IsDigits ds) :
      Begun .fraction (n ++ 0x2E :: ds)
  | mark {x : Bytes} {m : UInt8} (h : IsDecimal x) (hm : Part.isMark m = true) :
      Begun .mark (x ++ [m])
  | markSign {x : Bytes} {m s : UInt8} (h : IsDecimal x) (hm : Part.isMark m = true)
      (hs : s = 0x2B ∨ s = 0x2D) : Begun .markSign (x ++ [m, s])
  | exponent {x ds : Bytes} {m : UInt8} (h : IsDecimal x) (hm : Part.isMark m = true)
      (hds : IsDigits ds) : Begun .exponent (x ++ m :: ds)
  | signed {x ds : Bytes} {m s : UInt8} (h : IsDecimal x) (hm : Part.isMark m = true)
      (hs : s = 0x2B ∨ s = 0x2D) (hds : IsDigits ds) : Begun .exponent (x ++ m :: s :: ds)

namespace Begun

variable {p q : Part} {b : UInt8} {bs ds : Bytes}

theorem forall_digits_append (h : ∀ x ∈ ds, isDigit x = true) (hb : isDigit b = true) :
    ∀ x ∈ ds ++ [b], isDigit x = true :=
  List.forall_mem_append.mpr ⟨h, List.forall_mem_singleton.mpr hb⟩

theorem isDigits_append (h : IsDigits ds) (hb : isDigit b = true) : IsDigits (ds ++ [b]) :=
  ⟨List.append_ne_nil_of_left_ne_nil h.1 _, forall_digits_append h.2 hb⟩

theorem isDigits_singleton (hb : isDigit b = true) : IsDigits [b] :=
  ⟨List.cons_ne_nil _ _, List.forall_mem_singleton.mpr hb⟩

theorem isFinal_of_next (h : p.next b = .finish) : p.isFinal = true := by
  cases p with
  | zero | whole | fraction | exponent => rfl
  | sign | point | mark | markSign =>
    unfold Part.next at h
    dsimp only at h
    repeat' split at h
    all_goals cases h

/-- A number that may end is a number. -/
theorem isNumber (h : Begun p bs) (hfinal : p.isFinal = true) : IsNumber bs := by
  cases h with
  | sign | point | mark | markSign => cases hfinal
  | zero h => exact .decimal (.integer h)
  | whole hd h => exact .decimal (.integer (.plain (.digits hd h)))
  | minus hd h => exact .decimal (.integer (.minus (.digits hd h)))
  | fraction h hds => exact .decimal (.fraction h hds)
  | exponent h hm hds => exact .exponent h hm hds
  | signed h hm hs hds => exact .signed h hm hs hds

theorem step_ite {c : Prop} [Decidable c] {r : Part} {other : Part.Effect} {text : Bytes}
    (hnext : (if c then Part.Effect.extend r else other) = .extend q) (hpos : c → Begun r text)
    (hneg : ¬c → other = .extend q → Begun q text) : Begun q text := by
  split at hnext
  · next hc =>
    cases hnext
    exact hpos hc
  · next hc => exact hneg hc hnext

theorem whole_step {n : Bytes} (h : IsInteger n)
    (hmore : isDigit b = true → Begun .whole (n ++ [b]))
    (hnext : Part.whole.next b = .extend q) : Begun q (n ++ [b]) := by
  refine step_ite hnext hmore fun _ hnext => ?_
  refine step_ite hnext (fun hb => hb ▸ .point h) fun _ hnext => ?_
  exact step_ite hnext (fun hmark => .mark (.integer h) hmark) fun _ => nofun

theorem step (h : Begun p bs) (hnext : p.next b = .extend q) : Begun q (bs ++ [b]) := by
  cases h with
  | sign =>
    refine step_ite hnext (fun hb => hb ▸ .zero (.minus .zero)) fun hb hnext => ?_
    exact step_ite hnext (fun hdigit => .minus hb (List.forall_mem_singleton.mpr hdigit))
      fun _ => nofun
  | zero h =>
    refine step_ite hnext (fun hb => hb ▸ .point h) fun _ hnext => ?_
    refine step_ite hnext (fun hmark => .mark (.integer h) hmark) fun _ hnext => ?_
    split at hnext <;> cases hnext
  | whole hd h =>
    exact whole_step (.plain (.digits hd h))
      (fun hdigit => .whole hd (forall_digits_append h hdigit)) hnext
  | minus hd h =>
    exact whole_step (.minus (.digits hd h))
      (fun hdigit => .minus hd (forall_digits_append h hdigit)) hnext
  | point h =>
    rw [List.append_assoc]
    exact step_ite hnext (fun hdigit => .fraction h (isDigits_singleton hdigit)) fun _ => nofun
  | fraction h hds =>
    refine step_ite hnext (fun hdigit => ?_) fun _ hnext => ?_
    · rw [List.append_assoc]
      exact .fraction h (isDigits_append hds hdigit)
    · exact step_ite hnext (fun hmark => .mark (.fraction h hds) hmark) fun _ => nofun
  | mark h hm =>
    rw [List.append_assoc]
    refine step_ite hnext (fun hdigit => ?_) fun _ hnext => ?_
    · exact .exponent h hm (isDigits_singleton hdigit)
    · exact step_ite hnext (fun hsign => .markSign h hm (by simpa using hsign)) fun _ => nofun
  | markSign h hm hs =>
    rw [List.append_assoc]
    exact step_ite hnext (fun hdigit => .signed h hm hs (isDigits_singleton hdigit)) fun _ => nofun
  | exponent h hm hds =>
    rw [List.append_assoc]
    exact step_ite hnext (fun hdigit => .exponent h hm (isDigits_append hds hdigit)) fun _ => nofun
  | signed h hm hs hds =>
    rw [List.append_assoc]
    exact step_ite hnext (fun hdigit => .signed h hm hs (isDigits_append hds hdigit))
      fun _ => nofun

end Begun

end Token

/-! ### Strings -/

/-- What stands before a byte inside a string, where an escape may be open. -/
inductive Escape.Before : Escape → Bytes → Prop
  | none : Before .none []
  | begun : Before .begun [0x5C]
  | hex {due : Nat} {digits : Bytes} (hlength : digits.length + due = 4) (hdue : 1 ≤ due)
      (h : ∀ d ∈ digits, isHex d = true) : Before (.hex due) (0x5C :: 0x75 :: digits)

theorem Escape.step?_none {b : UInt8} {e : Escape} (h : Escape.step? .none b = some e) :
    (b = 0x5C ∧ e = .begun) ∨ (IsPlain b ∧ e = .none) := by
  unfold Escape.step? at h
  split at h
  · cases h
  · next hquote =>
    unfold Escape.next at h
    dsimp only at h
    split at h
    · next hslash => exact .inl ⟨hslash, (Option.some.inj h).symm⟩
    · next hslash =>
      split at h
      · cases h
      · next hcontrol =>
        have hcontrol : 0x20 ≤ b.toNat := UInt8.le_iff_toNat_le.mp (UInt8.not_lt.mp hcontrol)
        exact .inr ⟨⟨hcontrol, fun he => hquote ⟨rfl, he⟩, hslash⟩, (Option.some.inj h).symm⟩

theorem Escape.step?_begun {b : UInt8} {e : Escape} (h : Escape.step? .begun b = some e) :
    (b = 0x75 ∧ e = .hex 4) ∨ (Escape.isShort b = true ∧ e = .none) := by
  unfold Escape.step? at h
  rw [if_neg fun hboth => by cases hboth.1] at h
  unfold Escape.next at h
  dsimp only at h
  split at h
  · next hu => exact .inl ⟨hu, (Option.some.inj h).symm⟩
  · split at h
    · next hshort => exact .inr ⟨hshort, (Option.some.inj h).symm⟩
    · cases h

theorem Escape.isHex_of_step? {b : UInt8} {due : Nat} {e : Escape}
    (h : Escape.step? (.hex due) b = some e) : isHex b = true := by
  unfold Escape.step? at h
  rw [if_neg fun hboth => by cases hboth.1] at h
  unfold Escape.next at h
  dsimp only at h
  split at h
  · assumption
  · cases h

/-- Four digits make a unit, whatever follows. -/
theorem isText_unit {digits rest : Bytes} (hlength : digits.length = 4)
    (hdigits : ∀ d ∈ digits, isHex d = true) (h : IsText rest) :
    IsText (0x5C :: 0x75 :: digits ++ rest) := by
  match digits, hlength with
  | [h₁, h₂, h₃, h₄], _ =>
    simp only [List.forall_mem_cons] at hdigits
    obtain ⟨i₁, i₂, i₃, i₄, -⟩ := hdigits
    exact .unit i₁ i₂ i₃ i₄ h

theorem isText_of_ends {e : Escape} {before raw : Bytes} (hbefore : e.Before before)
    (h : Ends e raw) : IsText (before ++ raw) := by
  induction raw generalizing e before with
  | nil =>
    obtain rfl : e = .none := Option.some.inj h
    cases hbefore
    exact .nil
  | cons b rest ih =>
    obtain ⟨e', hstep, hrest⟩ := ends_cons.mp h
    cases hbefore with
    | none =>
      rcases Escape.step?_none hstep with ⟨rfl, rfl⟩ | ⟨hplain, rfl⟩
      · exact ih .begun hrest
      · exact .plain hplain (ih .none hrest)
    | begun =>
      rcases Escape.step?_begun hstep with ⟨rfl, rfl⟩ | ⟨hshort, rfl⟩
      · exact ih (@Escape.Before.hex 4 [] rfl (by decide) nofun) hrest
      · exact .short hshort (ih .none hrest)
    | @hex due digits hlength hdue hdigits =>
      have hhex := Escape.isHex_of_step? hstep
      have hall : ∀ d ∈ digits ++ [b], isHex d = true :=
        List.forall_mem_append.mpr ⟨hdigits, List.forall_mem_singleton.mpr hhex⟩
      have hmore : (digits ++ [b]).length = digits.length + 1 := by simp
      have hsplit : 0x5C :: 0x75 :: digits ++ b :: rest =
          0x5C :: 0x75 :: (digits ++ [b]) ++ rest := by simp
      obtain rfl := step?_hex hstep
      rw [hsplit]
      split at hrest
      · next hlast => exact isText_unit (by omega) hall (ih .none hrest)
      · next hlast => exact ih (.hex (by omega) (by omega) hall) hrest

/-- What the scanner takes for a string may stand between quotes. -/
theorem isText_of_legal {raw : Bytes} (h : Legal raw) : IsText raw :=
  isText_of_ends .none h

/-! ### The scanner -/

namespace Token

/-- The bytes are what the scanner has read. -/
inductive Traced : Scanner → Bytes → Prop
  | stuck {done : List Token} {bs : Bytes} (h : .stray ∈ done) : Traced ⟨done, .stuck⟩ bs
  | between {done : List Token} {bs w : Bytes} (h : Lexed done bs) (hw : IsBlank w) :
      Traced ⟨done, .between⟩ (bs ++ w)
  | word {done : List Token} {bs w part due : Bytes} {t : Token} (h : Lexed done bs)
      (hw : IsBlank w) (ht : Text t (part ++ due)) : Traced ⟨done, .word due t⟩ (bs ++ w ++ part)
  | number {done : List Token} {bs w raw : Bytes} {p : Part} (h : Lexed done bs) (hw : IsBlank w)
      (hn : Begun p raw.reverse) : Traced ⟨done, .number p raw⟩ (bs ++ w ++ raw.reverse)
  | string {done : List Token} {bs w raw : Bytes} {e : Escape} (h : Lexed done bs)
      (hw : IsBlank w) (hs : raw.reverse.foldlM Escape.step? .none = some e) :
      Traced ⟨done, .string e raw⟩ (bs ++ w ++ 0x22 :: raw.reverse)

variable {done : List Token} {s : Scanner} {b : UInt8} {bs w : Bytes}

theorem traced_ite {c : Prop} [Decidable c] {t : Scanner} (hpos : c → Traced s bs)
    (hneg : ¬c → Traced t bs) : Traced (if c then s else t) bs := by
  split
  · next h => exact hpos h
  · next h => exact hneg h

theorem traced_begin (h : Lexed done bs) (hw : IsBlank w) (b : UInt8) :
    Traced (Scanner.begin done b) (bs ++ w ++ [b]) := by
  have hmark : ∀ {t : Token}, Mark b t → Traced ⟨t :: done, .between⟩ (bs ++ w ++ [b]) := by
    intro t hm
    have hlexed := Traced.between (h.next hw (.mark hm)) isBlank_nil
    rwa [List.append_nil] at hlexed
  unfold Scanner.begin
  refine traced_ite (fun hb => ?_) fun _ => ?_
  · rw [List.append_assoc]
    exact .between h (hw.append (List.forall_mem_singleton.mpr hb))
  refine traced_ite (fun hb => ?_) fun _ => ?_
  · subst hb
    exact @Traced.string _ _ _ [] _ h hw rfl
  refine traced_ite (fun hb => hmark (hb ▸ .comma)) fun _ => ?_
  refine traced_ite (fun hb => hmark (hb ▸ .colon)) fun _ => ?_
  refine traced_ite (fun hb => hmark (hb ▸ .openMap)) fun _ => ?_
  refine traced_ite (fun hb => hmark (hb ▸ .closeMap)) fun _ => ?_
  refine traced_ite (fun hb => hmark (hb ▸ .openList)) fun _ => ?_
  refine traced_ite (fun hb => hmark (hb ▸ .closeList)) fun _ => ?_
  refine traced_ite (fun hb => ?_) fun _ => ?_
  · subst hb
    exact @Traced.number _ _ _ [_] _ h hw .sign
  refine traced_ite (fun hb => ?_) fun hzero => ?_
  · subst hb
    exact @Traced.number _ _ _ [_] _ h hw (.zero (.plain .zero))
  refine traced_ite (fun hb => ?_) fun _ => ?_
  · exact @Traced.number _ _ _ [_] _ h hw (.whole hzero (List.forall_mem_singleton.mpr hb))
  refine traced_ite (fun hb => ?_) fun _ => ?_
  · subst hb
    exact @Traced.word _ _ _ [_] _ _ h hw .null
  refine traced_ite (fun hb => ?_) fun _ => ?_
  · subst hb
    exact @Traced.word _ _ _ [_] _ _ h hw .bool_true
  refine traced_ite (fun hb => ?_) fun _ => ?_
  · subst hb
    exact @Traced.word _ _ _ [_] _ _ h hw .bool_false
  · exact .stuck List.mem_cons_self

theorem traced_fail (done : List Token) (bs : Bytes) : Traced (Scanner.fail done) bs :=
  .stuck List.mem_cons_self

/-- A token that has no end of its own ends before the next byte. -/
theorem traced_begin_next {t : Token} {text : Bytes} (h : Lexed done bs) (hw : IsBlank w)
    (ht : Text t text) (b : UInt8) :
    Traced (Scanner.begin (t :: done) b) (bs ++ w ++ text ++ [b]) := by
  have hbegin := traced_begin (h.next hw ht) isBlank_nil b
  rwa [List.append_nil] at hbegin

theorem Traced.push (h : Traced s bs) (b : UInt8) : Traced (s.push b) (bs ++ [b]) := by
  cases h with
  | stuck h => exact .stuck h
  | between h hw => exact traced_begin h hw b
  | @word done bs w part due t h hw ht =>
    cases due with
    | nil =>
      rw [List.append_nil] at ht
      exact traced_begin_next h hw ht b
    | cons c due =>
      unfold Scanner.push
      dsimp only
      split
      · next hc =>
        subst hc
        split
        · next hlast =>
          obtain rfl := List.isEmpty_iff.mp hlast
          have hlexed := Traced.between (h.next hw ht) isBlank_nil
          simpa using hlexed
        · rw [List.append_assoc]
          exact .word h hw (by simpa using ht)
      · exact traced_fail _ _
  | @number done bs w raw p h hw hn =>
    unfold Scanner.push
    dsimp only
    split
    · next q hnext =>
      have hmore := hn.step hnext
      rw [← List.reverse_cons] at hmore
      have htraced := Traced.number h hw hmore
      simpa using htraced
    · next hnext =>
      have hnumber := hn.isNumber (Begun.isFinal_of_next hnext)
      exact traced_begin_next h hw (.number hnumber) b
    · exact traced_fail _ _
  | @string done bs w raw e h hw hs =>
    unfold Scanner.push
    dsimp only
    split
    · next hend =>
      obtain ⟨rfl, rfl⟩ := hend
      have htext : Text (.string raw.reverse) (0x22 :: raw.reverse ++ [0x22]) :=
        .string (isText_of_legal hs)
      have hlexed := Traced.between (h.next hw htext) isBlank_nil
      simpa using hlexed
    · next hinside =>
      split
      · next e' hnext =>
        have hstep : e.step? b = some e' := by rw [Escape.step?, if_neg hinside, hnext]
        have hmore : (b :: raw).reverse.foldlM Escape.step? .none = some e' := by
          rw [List.reverse_cons, List.foldlM_append, hs]
          change (e.step? b).bind some = some e'
          rw [hstep]
          rfl
        have htraced := Traced.string h hw hmore
        simpa using htraced
      · exact traced_fail _ _

theorem traced_foldl (bs : Bytes) : Traced (bs.foldl Scanner.push Scanner.start) bs := by
  suffices h : ∀ before s, Traced s before → Traced (bs.foldl Scanner.push s) (before ++ bs) from
    h [] Scanner.start (.between .nil isBlank_nil)
  induction bs with
  | nil =>
    intro before s h
    rwa [List.append_nil]
  | cons b bs ih =>
    intro before s h
    have hrest := ih _ _ (h.push b)
    rwa [List.append_assoc] at hrest

/-- The tokens of a text are the text, up to blanks at its end, unless a fault was met. -/
theorem lexed_tokens (bs : Bytes) :
    .stray ∈ tokens bs ∨
      ∃ text w, Lexed (tokens bs).reverse text ∧ IsBlank w ∧ bs = text ++ w := by
  have htraced := traced_foldl bs
  unfold tokens
  generalize bs.foldl Scanner.push Scanner.start = s at htraced
  cases htraced with
  | stuck h => exact .inl (List.mem_reverse.mpr h)
  | between h hw =>
    refine .inr ⟨_, _, ?_, hw, rfl⟩
    rwa [Scanner.finish, List.reverse_reverse]
  | @word done bs w part due t h hw ht =>
    cases due with
    | nil =>
      rw [List.append_nil] at ht
      refine .inr ⟨_, [], ?_, isBlank_nil, (List.append_nil _).symm⟩
      rw [Scanner.finish, List.reverse_reverse]
      exact h.next hw ht
    | cons c due => exact .inl (List.mem_reverse.mpr List.mem_cons_self)
  | @number done bs w raw p h hw hn =>
    by_cases hfinal : p.isFinal = true
    · refine .inr ⟨_, [], ?_, isBlank_nil, (List.append_nil _).symm⟩
      simp only [Scanner.finish, if_pos hfinal, List.reverse_reverse]
      exact h.next hw (.number (hn.isNumber hfinal))
    · refine .inl ?_
      simp only [Scanner.finish, if_neg hfinal]
      exact List.mem_reverse.mpr List.mem_cons_self
  | string => exact .inl (List.mem_reverse.mpr List.mem_cons_self)

end Token

end BucketAdmin.Json
