import BucketAdmin.Proofs.Json.Literal

/-!
# Scanning written tokens

`Scans bs ts`: from between two tokens, and whatever was scanned before, the bytes `bs` add the
tokens `ts`. A number has no end of its own, so the scanner may still be inside a last number
(`Settled`); any mark that follows closes it (`Settled.push_mark`), and so does the end of the
text (`Settled.finish`). Words, the literals of texts and of whole numbers scan, and pieces
that scan can be put together around a mark (`Scans.join`).
-/

namespace BucketAdmin.Json

namespace Token

open Scanner (push start)

/-- The bytes that are a token each. -/
inductive Mark : UInt8 → Token → Prop
  | comma : Mark 0x2C .comma
  | colon : Mark 0x3A .colon
  | openMap : Mark 0x7B .openMap
  | closeMap : Mark 0x7D .closeMap
  | openList : Mark 0x5B .openList
  | closeList : Mark 0x5D .closeList

/-- The tokens scanned, latest first, where a number may still be open. -/
inductive Settled : List Token → Scanner → Prop
  | between (done : List Token) : Settled done ⟨done, .between⟩
  | number {part : Part} {raw : Bytes} (done : List Token) (h : part.isFinal = true) :
      Settled (.number raw.reverse :: done) ⟨done, .number part raw⟩

namespace Settled

variable {done : List Token} {s : Scanner}

theorem finish (h : Settled done s) : s.finish = done.reverse := by
  cases h with
  | between => rfl
  | number done hfinal => simp only [Scanner.finish, if_pos hfinal]

theorem next_mark {part : Part} (h : part.isFinal = true) {b : UInt8} {t : Token} (hm : Mark b t) :
    part.next b = .finish := by
  cases part <;> cases h <;> cases hm <;> rfl

theorem push_mark (h : Settled done s) {b : UInt8} {t : Token} (hm : Mark b t) :
    s.push b = ⟨t :: done, .between⟩ := by
  have hbegin : ∀ done, Scanner.begin done b = ⟨t :: done, .between⟩ := by
    intro done
    cases hm <;> rfl
  cases h with
  | between => exact hbegin done
  | number done hfinal =>
    simp only [push, next_mark hfinal hm]
    exact hbegin _

end Settled

/-- The bytes add the tokens to whatever was scanned before. -/
def Scans (bs : Bytes) (ts : List Token) : Prop :=
  ∀ done, Settled (ts.reverse ++ done) (bs.foldl push ⟨done, .between⟩)

theorem Scans.tokens {bs : Bytes} {ts : List Token} (h : Scans bs ts) : Json.tokens bs = ts := by
  have hfinish := (h []).finish
  rw [List.append_nil, List.reverse_reverse] at hfinish
  exact hfinish

theorem scans_nil : Scans [] [] := fun done => .between done

/-- Pieces that scan may be put together around a mark. -/
theorem Scans.join {bs₁ bs₂ : Bytes} {ts₁ ts₂ : List Token} {b : UInt8} {t : Token}
    (h₁ : Scans bs₁ ts₁) (hm : Mark b t) (h₂ : Scans bs₂ ts₂) :
    Scans (bs₁ ++ b :: bs₂) (ts₁ ++ t :: ts₂) := by
  intro done
  have h := h₂ (t :: (ts₁.reverse ++ done))
  rw [List.foldl_append, List.foldl_cons, (h₁ done).push_mark hm]
  simpa using h

theorem Scans.opened {bs : Bytes} {ts : List Token} {b : UInt8} {t : Token} (hm : Mark b t)
    (h : Scans bs ts) : Scans (b :: bs) (t :: ts) :=
  scans_nil.join hm h

theorem Scans.closed {bs : Bytes} {ts : List Token} {b : UInt8} {t : Token} (h : Scans bs ts)
    (hm : Mark b t) : Scans (bs ++ [b]) (ts ++ [t]) :=
  h.join hm scans_nil

/-! ## Words -/

theorem scans_true : Scans [0x74, 0x72, 0x75, 0x65] [.bool true] := fun done =>
  .between (.bool true :: done)

theorem scans_false : Scans [0x66, 0x61, 0x6C, 0x73, 0x65] [.bool false] := fun done =>
  .between (.bool false :: done)

/-! ## Numbers -/

theorem begin_digit {b : UInt8} (h : isDigit b = true) (h0 : b ≠ 0x30) (done : List Token) :
    Scanner.begin done b = ⟨done, .number .whole [b]⟩ := by
  have hne : ∀ {x : UInt8}, isDigit x = false → b ≠ x := by
    rintro x hx rfl
    rw [h] at hx
    cases hx
  have hspace : ¬isSpace b = true := by
    simp only [isSpace, Bool.or_eq_true, beq_iff_eq]
    exact not_or.mpr ⟨not_or.mpr ⟨not_or.mpr ⟨hne rfl, hne rfl⟩, hne rfl⟩, hne rfl⟩
  unfold Scanner.begin
  rw [if_neg hspace, if_neg (hne rfl), if_neg (hne rfl), if_neg (hne rfl), if_neg (hne rfl),
    if_neg (hne rfl), if_neg (hne rfl), if_neg (hne rfl), if_neg (hne rfl), if_neg h0, if_pos h]

theorem foldl_push_digits {ds : Bytes} (h : ∀ b ∈ ds, isDigit b = true) (done : List Token)
    (raw : Bytes) :
    ds.foldl push ⟨done, .number .whole raw⟩ = ⟨done, .number .whole (ds.reverse ++ raw)⟩ := by
  induction ds generalizing raw with
  | nil => rfl
  | cons d ds ih =>
    have hnext : Part.next .whole d = .extend .whole := if_pos (h d List.mem_cons_self)
    rw [List.foldl_cons]
    simp only [push, hnext]
    rw [ih fun b hb => h b (List.mem_cons_of_mem _ hb)]
    simp

/-- No zero leads a number other than zero. -/
theorem numeral_eq_cons {n : Nat} (h : n ≠ 0) : ∃ d ds, numeral n = d :: ds ∧ d ≠ 0x30 := by
  induction n using Nat.strongRecOn with
  | _ n ih =>
    by_cases hn : n < 10
    · have hdigit : ∀ k < 10, k ≠ 0 → (Nat.digitChar k).toNat.toUInt8 ≠ 0x30 := by decide
      exact ⟨_, [], Number.numeral_of_lt hn, hdigit n hn h⟩
    · obtain ⟨d, ds, hds, hd⟩ := ih (n / 10) (by omega) (by omega)
      have hcons := Number.numeral_of_le (n := n) (by omega)
      rw [hds, List.cons_append] at hcons
      exact ⟨d, _, hcons, hd⟩

theorem scans_numeral (n : Nat) : Scans (numeral n) [.number (numeral n)] := by
  intro done
  by_cases h : n = 0
  · subst h
    exact @Settled.number .zero [0x30] done rfl
  · obtain ⟨d, ds, hn, hd⟩ := numeral_eq_cons h
    have hdigits : ∀ b ∈ d :: ds, isDigit b = true := fun b hb =>
      Number.isDigit_of_mem_numeral (n := n) (hn ▸ hb)
    have hscan : (numeral n).foldl push ⟨done, .between⟩ =
        ⟨done, .number .whole (numeral n).reverse⟩ := by
      rw [hn, List.foldl_cons]
      change ds.foldl push (Scanner.begin done d) = _
      rw [begin_digit (hdigits d List.mem_cons_self) hd,
        foldl_push_digits fun b hb => hdigits b (List.mem_cons_of_mem _ hb)]
      simp
    rw [hscan]
    have hwhole : Part.isFinal .whole = true := rfl
    have h : Settled (.number (numeral n).reverse.reverse :: done)
        ⟨done, .number .whole (numeral n).reverse⟩ := .number done hwhole
    rwa [List.reverse_reverse] at h

/-! ## Strings -/

/-- The bytes pass inside a string without ending it or leaving an escape open. -/
def Passes (raw : Bytes) : Prop :=
  ∀ done before, raw.foldl push ⟨done, .string .none before⟩ =
    ⟨done, .string .none (raw.reverse ++ before)⟩

theorem passes_nil : Passes [] := fun _ _ => rfl

theorem Passes.append {as bs : Bytes} (ha : Passes as) (hb : Passes bs) : Passes (as ++ bs) := by
  intro done before
  rw [List.foldl_append, ha, hb]
  simp

theorem passes_plain {bs : Bytes} (h : ∀ b ∈ bs, IsPlain b) : Passes bs := by
  induction bs with
  | nil => exact passes_nil
  | cons b bs ih =>
    intro done before
    obtain ⟨hcontrol, hquote, hslash⟩ := h b List.mem_cons_self
    have hnext : Escape.next .none b = some .none := by
      have hlow : ¬b < 0x20 := by
        rw [UInt8.lt_iff_toNat_lt]
        exact Nat.not_lt.mpr hcontrol
      simp only [Escape.next, if_neg hslash, if_neg hlow]
    have hpush : push ⟨done, .string .none before⟩ b = ⟨done, .string .none (b :: before)⟩ := by
      simp [push, hnext, hquote]
    rw [List.foldl_cons, hpush, ih (fun x hx => h x (List.mem_cons_of_mem _ hx))]
    simp

theorem passes_short {e : UInt8} (h : Escape.isShort e = true) : Passes [0x5C, e] := by
  intro done before
  have hu : e ≠ 0x75 := by
    rintro rfl
    cases h
  have hnext : Escape.next .begun e = some .none := by
    simp only [Escape.next, if_neg hu, if_pos h]
  change push ⟨done, .string .begun (0x5C :: before)⟩ e = _
  simp [push, hnext]

theorem passes_unit {h₁ h₂ h₃ h₄ : UInt8} (i₁ : isHex h₁ = true) (i₂ : isHex h₂ = true)
    (i₃ : isHex h₃ = true) (i₄ : isHex h₄ = true) : Passes [0x5C, 0x75, h₁, h₂, h₃, h₄] := by
  intro done before
  change [h₁, h₂, h₃, h₄].foldl push ⟨done, .string (.hex 4) (0x75 :: 0x5C :: before)⟩ = _
  simp [push, Escape.next, i₁, i₂, i₃, i₄]

theorem isHex_hexByte : ∀ n < 16, isHex (hexByte n) = true := by decide

theorem passes_written {c : Char} {bs : Bytes} (h : Written c bs) : Passes bs := by
  cases h with
  | short _ hletter _ => exact passes_short hletter
  | control h =>
    exact passes_unit rfl rfl (isHex_hexByte _ (by omega)) (isHex_hexByte _ (by omega))
  | plain h => exact passes_plain h

theorem passes_quote (s : String) : Passes (quote s) := by
  unfold quote
  induction s.toList with
  | nil => exact passes_nil
  | cons c cs ih => exact (passes_written (written_quoteChar c)).append ih

/-- Quotes around bytes that pass make a string. -/
theorem Passes.scans {raw : Bytes} (h : Passes raw) :
    Scans (0x22 :: raw ++ [0x22]) [.string raw] := by
  intro done
  have hscan : (0x22 :: raw ++ [0x22]).foldl push ⟨done, .between⟩ =
      ⟨.string raw :: done, .between⟩ := by
    rw [List.cons_append, List.foldl_cons, List.foldl_append]
    change push (raw.foldl push ⟨done, .string .none []⟩) 0x22 = _
    rw [h, List.append_nil]
    simp [push]
  rw [hscan]
  exact .between _

end Token

end BucketAdmin.Json
