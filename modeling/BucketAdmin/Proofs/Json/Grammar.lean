import BucketAdmin.Proofs.Json.Parse

/-!
# The texts of a value

`Spells v bs` is the grammar of JSON as RFC 8259 has it: blanks, numbers (`IsNumber`), the bytes
between the quotes of a string (`IsText`), lists and maps whose parts may be nested to any depth.
What the grammar derives is read (`Spells.reads`): every text of a value scans to tokens that build
this value on top of any stack.
-/

namespace BucketAdmin.Json

open Token (Scans Passes Settled Scanner)
open Token.Scanner (push)

/-! ## Blanks -/

/-- Bytes that may stand between tokens. -/
def IsBlank (w : Bytes) : Prop := ∀ b ∈ w, isSpace b = true

theorem isBlank_nil : IsBlank [] := nofun

theorem IsBlank.append {w x : Bytes} (hw : IsBlank w) (hx : IsBlank x) : IsBlank (w ++ x) :=
  fun b hb => (List.mem_append.mp hb).elim (hw b) (hx b)

namespace Token

variable {b : UInt8} {w bs : Bytes} {ts done : List Token} {t : Token} {s : Scanner}

theorem begin_space (h : isSpace b = true) (done : List Token) :
    Scanner.begin done b = ⟨done, .between⟩ := by
  unfold Scanner.begin
  exact if_pos h

theorem next_space {part : Part} (hfinal : part.isFinal = true) (h : isSpace b = true) :
    part.next b = .finish := by
  simp only [isSpace, Bool.or_eq_true, beq_iff_eq] at h
  rcases h with ((rfl | rfl) | rfl) | rfl <;> cases part <;> cases hfinal <;> rfl

theorem Settled.push_space (hs : Settled done s) (h : isSpace b = true) :
    Settled done (s.push b) := by
  cases hs with
  | between =>
    change Settled done (Scanner.begin done b)
    rw [begin_space h]
    exact .between done
  | number done hfinal =>
    simp only [push, next_space hfinal h]
    rw [begin_space h]
    exact .between _

theorem Settled.foldl_space (hs : Settled done s) (h : IsBlank w) :
    Settled done (w.foldl push s) := by
  induction w generalizing s with
  | nil => exact hs
  | cons b w ih =>
    obtain ⟨hb, hw⟩ := List.forall_mem_cons.mp h
    exact ih (hs.push_space hb) hw

theorem foldl_blank (h : IsBlank w) (done : List Token) :
    w.foldl push ⟨done, .between⟩ = ⟨done, .between⟩ := by
  induction w with
  | nil => rfl
  | cons b w ih =>
    obtain ⟨hb, hw⟩ := List.forall_mem_cons.mp h
    rw [List.foldl_cons]
    change w.foldl push (Scanner.begin done b) = _
    rw [begin_space hb, ih hw]

theorem scans_null : Scans [0x6E, 0x75, 0x6C, 0x6C] [.null] := fun done =>
  .between (.null :: done)

theorem Scans.before (hw : IsBlank w) (h : Scans bs ts) : Scans (w ++ bs) ts := by
  intro done
  rw [List.foldl_append, foldl_blank hw]
  exact h done

theorem Scans.after (h : Scans bs ts) (hw : IsBlank w) : Scans (bs ++ w) ts := by
  intro done
  rw [List.foldl_append]
  exact (h done).foldl_space hw

end Token

/-! ## Numbers -/

/-- One or more digits. -/
def IsDigits (ds : Bytes) : Prop := ds ≠ [] ∧ ∀ b ∈ ds, isDigit b = true

/-- Digits with no zero in front of others. -/
inductive IsWhole : Bytes → Prop
  | zero : IsWhole [0x30]
  | digits {d : UInt8} {ds : Bytes} (hd : d ≠ 0x30) (h : ∀ b ∈ d :: ds, isDigit b = true) :
      IsWhole (d :: ds)

inductive IsInteger : Bytes → Prop
  | plain {ds : Bytes} (h : IsWhole ds) : IsInteger ds
  | minus {ds : Bytes} (h : IsWhole ds) : IsInteger (0x2D :: ds)

/-- An integer, with or without a fraction. -/
inductive IsDecimal : Bytes → Prop
  | integer {n : Bytes} (h : IsInteger n) : IsDecimal n
  | fraction {n ds : Bytes} (h : IsInteger n) (hds : IsDigits ds) : IsDecimal (n ++ 0x2E :: ds)

/-- A number, with or without an exponent. -/
inductive IsNumber : Bytes → Prop
  | decimal {x : Bytes} (h : IsDecimal x) : IsNumber x
  | exponent {x ds : Bytes} {mark : UInt8} (h : IsDecimal x) (hmark : Part.isMark mark = true)
      (hds : IsDigits ds) : IsNumber (x ++ mark :: ds)
  | signed {x ds : Bytes} {mark sign : UInt8} (h : IsDecimal x) (hmark : Part.isMark mark = true)
      (hsign : sign = 0x2B ∨ sign = 0x2D) (hds : IsDigits ds) : IsNumber (x ++ mark :: sign :: ds)

/-- The bytes take a number from one part to another. -/
def Part.Runs (p : Part) : Bytes → Part → Prop
  | [], q => p = q
  | b :: bs, q => ∃ p', p.next b = .extend p' ∧ p'.Runs bs q

namespace Part

variable {p q r : Part} {b : UInt8} {bs cs ds : Bytes}

theorem Runs.append (h : p.Runs bs q) (h' : q.Runs cs r) : p.Runs (bs ++ cs) r := by
  induction bs generalizing p with
  | nil =>
    obtain rfl := h
    exact h'
  | cons b bs ih =>
    obtain ⟨p', hnext, hrest⟩ := h
    exact ⟨p', hnext, ih hrest⟩

theorem runs_digits (hloop : ∀ b, isDigit b = true → q.next b = .extend q)
    (hds : ∀ b ∈ ds, isDigit b = true) : q.Runs ds q := by
  induction ds with
  | nil => rfl
  | cons d ds ih =>
    obtain ⟨hd, hds⟩ := List.forall_mem_cons.mp hds
    exact ⟨q, hloop d hd, ih hds⟩

/-- Digits where the first leads to a part that all others stay in. -/
theorem runs_isDigits (hfirst : ∀ b, isDigit b = true → p.next b = .extend q)
    (hloop : ∀ b, isDigit b = true → q.next b = .extend q) (h : IsDigits ds) : p.Runs ds q := by
  obtain ⟨hne, hds⟩ := h
  cases ds with
  | nil => exact absurd rfl hne
  | cons d ds =>
    obtain ⟨hd, hds⟩ := List.forall_mem_cons.mp hds
    exact ⟨q, hfirst d hd, runs_digits hloop hds⟩

theorem next_fraction (h : isDigit b = true) : fraction.next b = .extend fraction := if_pos h

theorem next_exponent (h : isDigit b = true) : exponent.next b = .extend exponent := if_pos h

/-- The parts that an integer ends in. -/
def isIntegral : Part → Bool
  | zero | whole => true
  | _ => false

/-- The parts that an integer with or without a fraction ends in. -/
def isDecimal : Part → Bool
  | zero | whole | fraction => true
  | _ => false

theorem ne_of_isMark {x : UInt8} (h : isMark b = true) (hx : isMark x = false) : b ≠ x := by
  rintro rfl
  rw [h] at hx
  cases hx

theorem not_isDigit_of_isMark (h : isMark b = true) : ¬isDigit b = true := by
  simp only [isMark, Bool.or_eq_true, beq_iff_eq] at h
  rcases h with rfl | rfl <;> decide

theorem next_point (h : p.isIntegral = true) : p.next 0x2E = .extend point := by
  cases p <;> cases h <;> rfl

theorem next_mark_decimal (h : p.isDecimal = true) (hb : isMark b = true) :
    p.next b = .extend mark := by
  have hdigit := not_isDigit_of_isMark hb
  have hpoint : b ≠ 0x2E := ne_of_isMark hb rfl
  cases p <;> cases h <;> simp [next, hdigit, hpoint, hb]

end Part

namespace Token

open Json.Part (Runs)

variable {b : UInt8} {bs ds : Bytes} {p q : Part}

theorem foldl_push_runs (h : p.Runs bs q) (done : List Token) (raw : Bytes) :
    bs.foldl push ⟨done, .number p raw⟩ = ⟨done, .number q (bs.reverse ++ raw)⟩ := by
  induction bs generalizing p raw with
  | nil =>
    obtain rfl := h
    rfl
  | cons b bs ih =>
    obtain ⟨p', hnext, hrest⟩ := h
    rw [List.foldl_cons]
    simp only [push, hnext]
    rw [ih hrest]
    simp

/-- From between two tokens the bytes lead into a number. -/
def Counts (bs : Bytes) (p : Part) : Prop :=
  ∀ done, bs.foldl push ⟨done, .between⟩ = ⟨done, .number p bs.reverse⟩

theorem Counts.append (h : Counts bs p) (h' : p.Runs ds q) : Counts (bs ++ ds) q := by
  intro done
  rw [List.foldl_append, h, foldl_push_runs h', List.reverse_append]

theorem Counts.scans (h : Counts bs p) (hfinal : p.isFinal = true) : Scans bs [.number bs] := by
  intro done
  have hsettled : Settled (.number bs.reverse.reverse :: done) ⟨done, .number p bs.reverse⟩ :=
    .number done hfinal
  rw [h]
  rwa [List.reverse_reverse] at hsettled

theorem counts_whole (h : IsWhole ds) : ∃ p, p.isIntegral = true ∧ Counts ds p := by
  cases h with
  | zero => exact ⟨.zero, rfl, fun done => rfl⟩
  | @digits d ds hd h =>
    obtain ⟨hdigit, hrest⟩ := List.forall_mem_cons.mp h
    have hfirst : Counts [d] .whole := fun done => begin_digit hdigit hd done
    exact ⟨.whole, rfl, hfirst.append (Part.runs_digits (fun b hb => if_pos hb) hrest)⟩

theorem next_sign_digit (hd : b ≠ 0x30) (h : isDigit b = true) :
    Part.next .sign b = .extend .whole := by
  simp only [Part.next, if_neg hd, if_pos h]

theorem counts_integer (h : IsInteger bs) : ∃ p, p.isIntegral = true ∧ Counts bs p := by
  cases h with
  | plain h => exact counts_whole h
  | minus h =>
    have hsign : Counts [0x2D] .sign := fun done => rfl
    cases h with
    | zero => exact ⟨.zero, rfl, fun done => rfl⟩
    | @digits d ds hd h =>
      obtain ⟨hdigit, hrest⟩ := List.forall_mem_cons.mp h
      refine ⟨.whole, rfl, hsign.append ⟨.whole, next_sign_digit hd hdigit, ?_⟩⟩
      exact Part.runs_digits (fun b hb => if_pos hb) hrest

theorem counts_decimal (h : IsDecimal bs) : ∃ p, p.isDecimal = true ∧ Counts bs p := by
  cases h with
  | integer h =>
    obtain ⟨p, hp, hcounts⟩ := counts_integer h
    exact ⟨p, by cases p <;> cases hp <;> rfl, hcounts⟩
  | @fraction n ds h hds =>
    obtain ⟨p, hp, hcounts⟩ := counts_integer h
    have hfraction : Runs .point ds .fraction :=
      Part.runs_isDigits (fun b hb => if_pos hb) (fun b hb => Part.next_fraction hb) hds
    have hruns : Runs p (0x2E :: ds) .fraction := ⟨.point, Part.next_point hp, hfraction⟩
    exact ⟨.fraction, rfl, hcounts.append hruns⟩

theorem scans_number (h : IsNumber bs) : Scans bs [.number bs] := by
  cases h with
  | decimal h =>
    obtain ⟨p, hp, hcounts⟩ := counts_decimal h
    exact hcounts.scans (by cases p <;> cases hp <;> rfl)
  | @exponent x ds mark h hmark hds =>
    obtain ⟨p, hp, hcounts⟩ := counts_decimal h
    have hexponent : Runs .mark ds .exponent :=
      Part.runs_isDigits (fun b hb => if_pos hb) (fun b hb => Part.next_exponent hb) hds
    have hruns : Runs p (mark :: ds) .exponent :=
      ⟨.mark, Part.next_mark_decimal hp hmark, hexponent⟩
    exact (hcounts.append hruns).scans rfl
  | @signed x ds mark sign h hmark hsign hds =>
    obtain ⟨p, hp, hcounts⟩ := counts_decimal h
    have hexponent : Runs .markSign ds .exponent :=
      Part.runs_isDigits (fun b hb => if_pos hb) (fun b hb => Part.next_exponent hb) hds
    have hruns : Runs p (mark :: sign :: ds) .exponent := by
      refine ⟨.mark, Part.next_mark_decimal hp hmark, .markSign, ?_, hexponent⟩
      rcases hsign with rfl | rfl <;> rfl
    exact (hcounts.append hruns).scans rfl

end Token

/-! ## Strings -/

/-- Bytes that may stand between quotes. -/
inductive IsText : Bytes → Prop
  | nil : IsText []
  | plain {b : UInt8} {bs : Bytes} (hb : IsPlain b) (h : IsText bs) : IsText (b :: bs)
  | short {e : UInt8} {bs : Bytes} (he : Escape.isShort e = true) (h : IsText bs) :
      IsText (0x5C :: e :: bs)
  | unit {h₁ h₂ h₃ h₄ : UInt8} {bs : Bytes} (i₁ : isHex h₁ = true) (i₂ : isHex h₂ = true)
      (i₃ : isHex h₃ = true) (i₄ : isHex h₄ = true) (h : IsText bs) :
      IsText (0x5C :: 0x75 :: h₁ :: h₂ :: h₃ :: h₄ :: bs)

theorem IsText.passes {raw : Bytes} (h : IsText raw) : Passes raw := by
  induction h with
  | nil => exact Token.passes_nil
  | @plain b bs hb _ ih =>
    have hone : Passes [b] := Token.passes_plain (List.forall_mem_singleton.mpr hb)
    exact hone.append ih
  | short he _ ih => exact (Token.passes_short he).append ih
  | unit i₁ i₂ i₃ i₄ _ ih => exact (Token.passes_unit i₁ i₂ i₃ i₄).append ih

/-! ## Values -/

open Value (commaSeparated)

/-- A member of a map as it may be written: its key, with blanks around it, and a text of its
value. -/
structure SpacedMember where
  before : Bytes
  key : Bytes
  between : Bytes
  value : Value
  text : Bytes

namespace SpacedMember

def bytes (m : SpacedMember) : Bytes :=
  m.before ++ (0x22 :: m.key ++ [0x22]) ++ m.between ++ 0x3A :: m.text

structure WellFormed (m : SpacedMember) : Prop where
  before : IsBlank m.before
  key : IsText m.key
  between : IsBlank m.between

end SpacedMember

/-- The bytes are a text of the value. -/
inductive Spells : Value → Bytes → Prop
  | null : Spells .null [0x6E, 0x75, 0x6C, 0x6C]
  | bool_true : Spells (.bool true) [0x74, 0x72, 0x75, 0x65]
  | bool_false : Spells (.bool false) [0x66, 0x61, 0x6C, 0x73, 0x65]
  | number {raw : Bytes} (h : IsNumber raw) : Spells (.number raw) raw
  | string {raw : Bytes} (h : IsText raw) : Spells (.string raw) (0x22 :: raw ++ [0x22])
  | array {ps : Items} {lead : Bytes} (hlead : IsBlank lead) (h : ∀ p ∈ ps, Spells p.1 p.2) :
      Spells (.array (ps.map (·.1)) true)
        (0x5B :: (lead ++ commaSeparated (ps.map (·.2)) ++ [0x5D]))
  | object {ms : List SpacedMember} {lead : Bytes} (hlead : IsBlank lead)
      (hms : ∀ m ∈ ms, m.WellFormed) (h : ∀ m ∈ ms, Spells m.value m.text) :
      Spells (.object (ms.map fun m => (m.key, m.value)) true)
        (0x7B :: (lead ++ commaSeparated (ms.map (·.bytes)) ++ [0x7D]))
  | padded {v : Value} {before bs after : Bytes} (hbefore : IsBlank before)
      (hafter : IsBlank after) (h : Spells v bs) : Spells v (before ++ bs ++ after)

/-! ## What is spelled is read -/

section

variable {v : Value} {b : UInt8} {bs before w : Bytes} {ts : List Token} {t : Token}

/-- Blanks after an opening bracket do not matter. -/
theorem Token.Scans.lead (h : Scans (b :: bs) ts) (hm : Token.Mark b t) (hw : IsBlank w) :
    Scans (b :: (w ++ bs)) ts := by
  intro done
  have hmark : push ⟨done, .between⟩ b = ⟨t :: done, .between⟩ :=
    (Settled.between done).push_mark hm
  have hscan := h done
  rw [List.foldl_cons, hmark] at hscan ⊢
  rw [List.foldl_append, Token.foldl_blank hw]
  exact hscan

theorem Reads.lead (h : Reads v (b :: bs)) (hm : Token.Mark b t) (hw : IsBlank w) :
    Reads v (b :: (w ++ bs)) := by
  obtain ⟨ts, hscan, hbuild⟩ := h
  exact ⟨ts, hscan.lead hm hw, hbuild⟩

theorem Reads.padded (h : Reads v bs) (hbefore : IsBlank before) (hw : IsBlank w) :
    Reads v (before ++ bs ++ w) := by
  obtain ⟨ts, hscan, hbuild⟩ := h
  exact ⟨ts, (hscan.before hbefore).after hw, hbuild⟩

end

theorem SpacedMember.WellFormed.readsMember {m : SpacedMember} (hm : m.WellFormed)
    (h : Reads m.value m.text) : ReadsMember m.key m.value m.bytes := by
  obtain ⟨ts, hscan, hbuild⟩ := h
  have hkey : Scans (m.before ++ (0x22 :: m.key ++ [0x22]) ++ m.between) [.string m.key] :=
    (hm.key.passes.scans.before hm.before).after hm.between
  exact ⟨ts, hkey.join .colon hscan, hbuild⟩

/-- **What the grammar derives is read.** -/
theorem Spells.reads {v : Value} {bs : Bytes} (h : Spells v bs) : Reads v bs := by
  induction h with
  | null => exact ⟨_, Token.scans_null, fun _ => rfl⟩
  | bool_true => exact reads_bool true
  | bool_false => exact reads_bool false
  | number h => exact ⟨_, Token.scans_number h, fun _ => rfl⟩
  | string h => exact ⟨_, h.passes.scans, fun _ => rfl⟩
  | array hlead _ ih =>
    rw [List.append_assoc]
    exact (reads_array ih).lead .openList hlead
  | @object ms lead hlead hms _ ih =>
    have hparts : ∀ p ∈ ms.map fun m => (m.key, m.value, m.bytes),
        ReadsMember p.1 p.2.1 p.2.2 := by
      intro p hp
      obtain ⟨m, hm, rfl⟩ := List.mem_map.mp hp
      exact (hms m hm).readsMember (ih m hm)
    have hreads := reads_object hparts
    rw [List.map_map, List.map_map] at hreads
    rw [List.append_assoc]
    exact hreads.lead .openMap hlead
  | padded hbefore hafter _ ih => exact ih.padded hbefore hafter

theorem Spells.parse {v : Value} {bs : Bytes} (h : Spells v bs) : parse bs = (v, true) :=
  h.reads.parse

end BucketAdmin.Json
