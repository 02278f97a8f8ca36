import BucketAdmin.Json.Record
import BucketAdmin.Proofs.Except
import BucketAdmin.Proofs.Json.Cost

/-!
# Strings are no longer than their document

The scanner cuts no string out of a document that is longer than what it has read of it
(`Token.short_tokens`). Every string that stands one level below the top of the value that is built
is one of those (`Value.short_parse`), and so is what a record is read from (`Record.short_read`).
A text found in a field thus takes no more bytes to write than the whole document has
(`Record.length_quote_getD`).
-/

namespace BucketAdmin.Json

/-! ## Tokens -/

namespace Token

open Scanner (push start)

/-- If it is a string, it has at most so many bytes, and they may stand between quotes. -/
def Short (n : Nat) : Token → Prop
  | .string raw => raw.length ≤ n ∧ Legal raw
  | _ => True

theorem Short.succ {n : Nat} {t : Token} (h : t.Short n) : t.Short (n + 1) := by
  cases t with
  | string raw => exact ⟨Nat.le_succ_of_le h.1, h.2⟩
  | _ => trivial

/-- The same of a token that the scanner is in the middle of. -/
def Mode.Short (n : Nat) : Mode → Prop
  | .word _ token => token.Short n
  | .string escape raw => raw.length ≤ n ∧ raw.reverse.foldlM Escape.step? .none = some escape
  | _ => True

/-- The same of all tokens scanned. -/
structure Scanner.Short (n : Nat) (s : Scanner) : Prop where
  done : ∀ t ∈ s.done, t.Short n
  mode : s.mode.Short n

variable {n : Nat} {done : List Token} {t : Token} {s : Scanner}

theorem forall_short_cons (ht : t.Short n) (h : ∀ u ∈ done, u.Short n) :
    ∀ u ∈ t :: done, u.Short n :=
  List.forall_mem_cons.mpr ⟨ht, h⟩

theorem short_begin (h : ∀ u ∈ done, u.Short n) (b : UInt8) : (Scanner.begin done b).Short n := by
  have hmark : ∀ {t : Token}, t.Short n → Scanner.Short n ⟨t :: done, .between⟩ := fun ht =>
    ⟨forall_short_cons ht h, trivial⟩
  have hbegun : ∀ {mode : Mode}, mode.Short n → Scanner.Short n ⟨done, mode⟩ := fun hm => ⟨h, hm⟩
  unfold Scanner.begin
  -- a space, a quote, the marks, the ways to begin a number, the words, and a stray byte
  refine iteInduction (fun _ => hbegun trivial) fun _ => ?_
  refine iteInduction (fun _ => hbegun ⟨Nat.zero_le n, rfl⟩) fun _ => ?_
  refine iteInduction (fun _ => hmark trivial) fun _ => ?_
  refine iteInduction (fun _ => hmark trivial) fun _ => ?_
  refine iteInduction (fun _ => hmark trivial) fun _ => ?_
  refine iteInduction (fun _ => hmark trivial) fun _ => ?_
  refine iteInduction (fun _ => hmark trivial) fun _ => ?_
  refine iteInduction (fun _ => hmark trivial) fun _ => ?_
  refine iteInduction (fun _ => hbegun trivial) fun _ => ?_
  refine iteInduction (fun _ => hbegun trivial) fun _ => ?_
  refine iteInduction (fun _ => hbegun trivial) fun _ => ?_
  refine iteInduction (fun _ => hbegun trivial) fun _ => ?_
  refine iteInduction (fun _ => hbegun trivial) fun _ => ?_
  refine iteInduction (fun _ => hbegun trivial) fun _ => ?_
  exact ⟨forall_short_cons trivial h, trivial⟩

theorem short_push (h : s.Short n) (b : UInt8) : (s.push b).Short (n + 1) := by
  obtain ⟨done, mode⟩ := s
  obtain ⟨hdone, hmode⟩ := h
  have hsucc : ∀ u ∈ done, u.Short (n + 1) := fun u hu => (hdone u hu).succ
  have hfail : (Scanner.fail done).Short (n + 1) := ⟨forall_short_cons trivial hsucc, trivial⟩
  cases mode with
  | between => exact short_begin hsucc b
  | word due token =>
    have htoken := Short.succ hmode
    cases due with
    | nil => exact short_begin (forall_short_cons htoken hsucc) b
    | cons c due =>
      unfold push
      dsimp only
      split
      · split
        · exact ⟨forall_short_cons htoken hsucc, trivial⟩
        · exact ⟨hsucc, htoken⟩
      · exact hfail
  | number part raw =>
    unfold push
    dsimp only
    split
    · exact ⟨hsucc, trivial⟩
    · exact short_begin (forall_short_cons (t := .number _) trivial hsucc) b
    · exact hfail
  | string escape raw =>
    obtain ⟨hsize, hescape⟩ := hmode
    unfold push
    dsimp only
    split
    · next hend =>
      obtain ⟨rfl, -⟩ := hend
      refine ⟨forall_short_cons ⟨?_, hescape⟩ hsucc, trivial⟩
      rw [List.length_reverse]
      exact Nat.le_succ_of_le hsize
    · next hinside =>
      split
      · next next hnext =>
        refine ⟨hsucc, Nat.succ_le_succ hsize, ?_⟩
        have hstep : escape.step? b = some next := by
          rw [Escape.step?, if_neg hinside, hnext]
        rw [List.reverse_cons, List.foldlM_append, hescape]
        change (escape.step? b).bind some = some next
        rw [hstep]
        rfl
      · exact hfail
  | stuck => exact ⟨hsucc, trivial⟩

theorem short_foldl (h : s.Short n) (bs : Bytes) : (bs.foldl push s).Short (n + bs.length) := by
  induction bs generalizing s n with
  | nil => exact h
  | cons b bs ih =>
    have hrest := ih (short_push h b)
    rw [List.foldl_cons, List.length_cons, Nat.add_comm bs.length 1, ← Nat.add_assoc]
    exact hrest

theorem short_finish (h : s.Short n) : ∀ u ∈ s.finish, u.Short n := by
  obtain ⟨done, mode⟩ := s
  obtain ⟨hdone, hmode⟩ := h
  have hlast : ∀ {t : Token}, t.Short n → ∀ u ∈ (t :: done).reverse, u.Short n :=
    fun ht u hu => forall_short_cons ht hdone u (List.mem_reverse.mp hu)
  have hnone : ∀ u ∈ done.reverse, u.Short n := fun u hu => hdone u (List.mem_reverse.mp hu)
  cases mode with
  | between | stuck => exact hnone
  | word due token =>
    cases due with
    | nil => exact hlast hmode
    | cons => exact hlast (t := .stray) trivial
  | number part raw =>
    refine hlast ?_
    split <;> trivial
  | string => exact hlast (t := .stray) trivial

/-- The strings of a document are no longer than the document. -/
theorem short_tokens (bs : Bytes) : ∀ t ∈ tokens bs, t.Short bs.length := by
  have hstart : Scanner.Short 0 start := ⟨nofun, trivial⟩
  have hscan := short_foldl hstart bs
  rw [Nat.zero_add] at hscan
  exact short_finish hscan

end Token

/-! ## Values -/

namespace Value

/-- If it is a string, it has at most so many bytes, and they may stand between quotes. -/
def Short (n : Nat) : Value → Prop
  | .string raw => raw.length ≤ n ∧ Legal raw
  | _ => True

/-- The same of what a list or a map holds. -/
def ShortParts (n : Nat) : Value → Prop
  | .array items _ => ∀ v ∈ items, v.Short n
  | .object members _ => ∀ m ∈ members, m.2.Short n
  | _ => True

/-- The same of what an open list or map holds so far. -/
def Frame.Short (n : Nat) : Frame → Prop
  | .list items => ∀ v ∈ items, v.Short n
  | .map members _ => ∀ m ∈ members, m.2.Short n

/-- The same of all that was read. -/
def Reading.Short (n : Nat) : Reading → Prop
  | .value stack | .firstItem stack | .firstKey stack => ∀ f ∈ stack, f.Short n
  | .items xs stack => (∀ v ∈ xs, v.Short n) ∧ ∀ f ∈ stack, f.Short n
  | .key ms stack | .members ms stack | .colon ms _ stack =>
    (∀ m ∈ ms, m.2.Short n) ∧ ∀ f ∈ stack, f.Short n
  | .complete v _ => v.ShortParts n

open Reading (push settle beginValue?)

variable {n : Nat} {v : Value} {stack : List Frame} {r : Reading} {t : Token}

theorem forall_mem_reverse {α : Type} {P : α → Prop} {xs : List α} (h : ∀ x ∈ xs, P x) :
    ∀ x ∈ xs.reverse, P x :=
  fun x hx => h x (List.mem_reverse.mp hx)

theorem short_settle (hv : v.Short n) (hparts : v.ShortParts n) (hstack : ∀ f ∈ stack, f.Short n) :
    (settle v stack).Short n := by
  cases stack with
  | nil => exact hparts
  | cons f stack =>
    obtain ⟨hf, hrest⟩ := List.forall_mem_cons.mp hstack
    cases f with
    | list items => exact ⟨List.forall_mem_cons.mpr ⟨hv, hf⟩, hrest⟩
    | map members key => exact ⟨List.forall_mem_cons.mpr ⟨hv, hf⟩, hrest⟩

theorem short_cut {f : Frame} (hv : v.Short n) (hf : f.Short n) :
    (f.cut v).Short n ∧ (f.cut v).ShortParts n := by
  cases f with
  | list items => exact ⟨trivial, forall_mem_reverse (List.forall_mem_cons.mpr ⟨hv, hf⟩)⟩
  | map members key => exact ⟨trivial, forall_mem_reverse (List.forall_mem_cons.mpr ⟨hv, hf⟩)⟩

theorem short_foldl_cut (hv : v.Short n) (hparts : v.ShortParts n)
    (hstack : ∀ f ∈ stack, f.Short n) : (stack.foldl Frame.cut v).ShortParts n := by
  induction stack generalizing v with
  | nil => exact hparts
  | cons f stack ih =>
    obtain ⟨hf, hstack⟩ := List.forall_mem_cons.mp hstack
    obtain ⟨hcut, hparts⟩ := short_cut hv hf
    exact ih hcut hparts hstack

theorem short_cutOff (h : r.Short n) : r.cutOff.ShortParts n := by
  cases r with
  | value stack => exact short_foldl_cut (v := .broken) trivial trivial h
  | firstItem stack => exact short_foldl_cut (v := .array [] false) trivial nofun h
  | items items stack =>
    exact short_foldl_cut (v := .array _ false) trivial (forall_mem_reverse h.1) h.2
  | firstKey stack => exact short_foldl_cut (v := .object [] false) trivial nofun h
  | key members stack | members members stack =>
    exact short_foldl_cut (v := .object _ false) trivial (forall_mem_reverse h.1) h.2
  | colon members key stack =>
    have hstack : ∀ f ∈ Frame.map members key :: stack, f.Short n :=
      List.forall_mem_cons.mpr ⟨h.1, h.2⟩
    exact short_foldl_cut (v := .broken) trivial trivial hstack
  | complete v clean => exact h

theorem short_beginValue? (ht : t.Short n) (hstack : ∀ f ∈ stack, f.Short n)
    (h : beginValue? stack t = some r) : r.Short n := by
  cases t with
  | null => exact Option.some.inj h ▸ short_settle (v := .null) trivial trivial hstack
  | bool b => exact Option.some.inj h ▸ short_settle (v := .bool b) trivial trivial hstack
  | number raw => exact Option.some.inj h ▸ short_settle (v := .number raw) trivial trivial hstack
  | string raw => exact Option.some.inj h ▸ short_settle (v := .string raw) ht trivial hstack
  | openList => exact Option.some.inj h ▸ hstack
  | openMap => exact Option.some.inj h ▸ hstack
  | closeList | closeMap | comma | colon | stray => cases h

theorem short_beginValue (ht : t.Short n) (hstack : ∀ f ∈ stack, f.Short n) {cut : Value}
    (hcut : cut.ShortParts n) :
    ((beginValue? stack t).getD (.complete cut false)).Short n := by
  cases h : beginValue? stack t with
  | none => exact hcut
  | some r => exact short_beginValue? ht hstack h

theorem short_push (h : r.Short n) (ht : t.Short n) : (r.push t).Short n := by
  have hcut := short_cutOff h
  unfold push
  split
  · exact short_settle (v := .array [] true) trivial nofun h
  · exact List.forall_mem_cons.mpr ⟨h.1, h.2⟩
  · exact short_settle (v := .array _ true) trivial (forall_mem_reverse h.1) h.2
  · exact short_settle (v := .object [] true) trivial nofun h
  · exact ⟨nofun, h⟩
  · exact h
  · exact List.forall_mem_cons.mpr ⟨h.1, h.2⟩
  · exact h
  · exact short_settle (v := .object _ true) trivial (forall_mem_reverse h.1) h.2
  · exact short_beginValue ht h hcut
  · have hopened : (Frame.list []).Short n := List.forall_mem_nil _
    exact short_beginValue ht (List.forall_mem_cons.mpr ⟨hopened, h⟩) hcut
  · exact hcut

theorem short_foldl_push {ts : List Token} (h : r.Short n) (hts : ∀ t ∈ ts, t.Short n) :
    (ts.foldl push r).Short n := by
  induction ts generalizing r with
  | nil => exact h
  | cons t ts ih =>
    obtain ⟨ht, hts⟩ := List.forall_mem_cons.mp hts
    exact ih (short_push h ht) hts

/-- The strings one level below the top of a document are no longer than the document. -/
theorem short_parse (bs : Bytes) : (parse bs).1.ShortParts bs.length := by
  have hstart : (Reading.value []).Short bs.length := List.forall_mem_nil _
  have hread := short_foldl_push hstart (Token.short_tokens bs)
  unfold parse
  generalize (tokens bs).foldl push (.value []) = r at hread
  cases r with
  | complete v clean => exact hread
  | _ => exact short_cutOff hread

end Value

/-! ## Records -/

namespace Record

variable {n : Nat} {r : Record} {seen slots : Slots} {closed : Bool}

theorem short_readMembers {ms : List (Bytes × Value)} (hseen : ∀ p ∈ seen, p.2.Short n)
    (hms : ∀ m ∈ ms, m.2.Short n) (h : r.readMembers seen closed ms = .ok slots) :
    ∀ p ∈ slots, p.2.Short n := by
  induction ms generalizing seen with
  | nil =>
    unfold readMembers at h
    split at h
    · cases h
    · split at h
      · cases h
      · cases h
        exact hseen
  | cons m ms ih =>
    obtain ⟨hm, hms⟩ := List.forall_mem_cons.mp hms
    unfold readMembers at h
    split at h
    · cases h
    · split at h
      · exact ih hseen hms h
      · split at h
        · cases h
        · split at h
          · cases h
          · exact ih (List.forall_mem_cons.mpr ⟨hm, hseen⟩) hms h

theorem short_readItems {position : Nat} {fields : List Field} {items : List Value}
    (hitems : ∀ v ∈ items, v.Short n) (h : r.readItems closed position fields items = .ok slots) :
    ∀ p ∈ slots, p.2.Short n := by
  induction fields generalizing position items slots with
  | nil =>
    unfold readItems at h
    split at h
    · cases h
      exact nofun
    · cases h
  | cons f fields ih =>
    cases items with
    | nil =>
      unfold readItems at h
      split at h
      · cases h
      · split at h
        · cases h
        · exact ih hitems h
    | cons v items =>
      obtain ⟨hv, hitems⟩ := List.forall_mem_cons.mp hitems
      obtain ⟨-, -, h⟩ := bind_eq_ok.mp h
      obtain ⟨rest, hrest, h⟩ := bind_eq_ok.mp h
      cases h
      exact List.forall_mem_cons.mpr ⟨hv, ih hitems hrest⟩

theorem short_read {v : Value} (hv : v.ShortParts n) (h : r.read v = .ok slots) :
    ∀ p ∈ slots, p.2.Short n := by
  cases v with
  | object members closed => exact short_readMembers (List.forall_mem_nil _) hv h
  | array items closed => exact short_readItems hv h
  | _ => cases h

/-- A text in a slot takes no more bytes to write than its literal. -/
theorem length_quote_getD {key default s : String} (hslots : ∀ p ∈ slots, p.2.Short n)
    (h : slots.getD key Value.text default = .ok s) : s = default ∨ (quote s).length ≤ n := by
  unfold Slots.getD at h
  cases hlookup : slots.lookup key with
  | none =>
    rw [hlookup] at h
    cases h
    exact .inl rfl
  | some v =>
    rw [hlookup] at h
    obtain ⟨before, after, rfl, -⟩ := List.lookup_eq_some_iff.mp hlookup
    have hv : v.Short n :=
      hslots (key, v) (List.mem_append_right before List.mem_cons_self)
    cases v with
    | string raw =>
      obtain ⟨hsize, hlegal⟩ := hv
      dsimp only [Value.text] at h
      cases htext : unquote? raw with
      | none =>
        rw [htext] at h
        cases h
      | some text =>
        rw [htext] at h
        cases h
        exact .inr (Nat.le_trans (length_quote_le htext hlegal) hsize)
    | _ => cases h

end Record

end BucketAdmin.Json
