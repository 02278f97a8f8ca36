import BucketAdmin.Json.Reader
import BucketAdmin.Json.Writer
import BucketAdmin.Proofs.Json.Scan

/-!
# Written values read back

`Reads v bs`: the bytes `bs` are a text of the complete value `v`. They scan to tokens, and the
tokens build `v` on top of any stack of open containers (`Builds`). A text that reads as `v` is
parsed as `v` with nothing after it (`Reads.parse`). Lists and maps read when their parts do
(`reads_array`, `reads_object`), so every value made by the writer's functions is read back from
its own text (`ReadsBack`), and reading that text is reading the value (`read_render`).
-/

namespace BucketAdmin.Json

open Value (Frame)
open Value.Reading (push settle)
open Token (Scans Passes)

/-- The tokens build the value on top of any stack. -/
def Builds (ts : List Token) (v : Value) : Prop :=
  ∀ stack, ts.foldl push (.value stack) = settle v stack

theorem foldl_push_complete (ts : List Token) (v : Value) :
    ts.foldl push (.complete v false) = .complete v false := by
  induction ts with
  | nil => rfl
  | cons t ts ih => exact ih

/-- Tokens that build a value where one is due build it as the first item of a list too. -/
theorem Builds.firstItem {ts : List Token} {v : Value} (h : Builds ts v) (stack : List Frame) :
    ts.foldl push (.firstItem stack) = settle v (.list [] :: stack) := by
  rw [← h (.list [] :: stack)]
  cases ts with
  | nil => cases h []
  | cons t ts =>
    cases ht : Value.Reading.beginValue? [] t with
    | none =>
      -- a token that begins no value breaks the text off at once
      have hcut : push (.value []) t = .complete .broken false := by
        cases t <;> cases ht <;> rfl
      have hbuild := h []
      rw [List.foldl_cons, hcut, foldl_push_complete] at hbuild
      cases hbuild
    | some r =>
      have hpush : push (.firstItem stack) t = push (.value (.list [] :: stack)) t := by
        cases t <;> cases ht <;> rfl
      rw [List.foldl_cons, List.foldl_cons, hpush]

/-- The bytes are a text of the complete value. -/
def Reads (v : Value) (bs : Bytes) : Prop := ∃ ts, Scans bs ts ∧ Builds ts v

theorem Reads.parse {v : Value} {bs : Bytes} (h : Reads v bs) : parse bs = (v, true) := by
  obtain ⟨ts, hscan, hbuild⟩ := h
  rw [Json.parse, hscan.tokens, hbuild []]
  rfl

/-! ## Scalars -/

theorem reads_bool (b : Bool) : Reads (.bool b) (Value.bool b).render := by
  cases b with
  | true => exact ⟨_, Token.scans_true, fun _ => rfl⟩
  | false => exact ⟨_, Token.scans_false, fun _ => rfl⟩

theorem reads_ofNat (n : Nat) : Reads (.ofNat n) (Value.ofNat n).render :=
  ⟨_, Token.scans_numeral n, fun _ => rfl⟩

theorem reads_ofText (s : String) : Reads (.ofText s) (Value.ofText s).render :=
  ⟨_, (Token.passes_quote s).scans, fun _ => rfl⟩

/-! ## Lists -/

open Value (commaSeparated)

/-- The items of a list, each with its text. -/
abbrev Items := List (Value × Bytes)

theorem exists_itemTokens (p : Value × Bytes) (ps : Items) (h : ∀ q ∈ p :: ps, Reads q.1 q.2) :
    ∃ ts, Scans (commaSeparated ((p :: ps).map (·.2))) ts ∧
      (∀ stack, ts.foldl push (.firstItem stack) = ts.foldl push (.value (.list [] :: stack))) ∧
      ∀ items stack, ts.foldl push (.value (.list items :: stack)) =
        .items (((p :: ps).map (·.1)).reverse ++ items) stack := by
  induction ps generalizing p with
  | nil =>
    obtain ⟨ts, hscan, hbuild⟩ := h p List.mem_cons_self
    refine ⟨ts, hscan, fun stack => ?_, fun items stack => hbuild _⟩
    rw [hbuild.firstItem, hbuild]
  | cons q qs ih =>
    obtain ⟨ts, hscan, hbuild⟩ := h p List.mem_cons_self
    obtain ⟨us, hscans, -, hitems⟩ := ih q fun r hr => h r (List.mem_cons_of_mem _ hr)
    refine ⟨ts ++ .comma :: us, hscan.join .comma hscans, fun stack => ?_, fun items stack => ?_⟩
    · rw [List.foldl_append, List.foldl_append, hbuild.firstItem, hbuild]
    · rw [List.foldl_append, hbuild, List.foldl_cons]
      change us.foldl push (.value (.list (p.1 :: items) :: stack)) = _
      rw [hitems]
      simp

/-- Texts of the items, with commas between and brackets around, are a text of the list. -/
theorem reads_array {ps : Items} (h : ∀ p ∈ ps, Reads p.1 p.2) :
    Reads (.array (ps.map (·.1)) true) (0x5B :: commaSeparated (ps.map (·.2)) ++ [0x5D]) := by
  cases ps with
  | nil => exact ⟨_, (Token.scans_nil.closed .closeList).opened .openList, fun _ => rfl⟩
  | cons p ps =>
    obtain ⟨ts, hscan, hfirst, hitems⟩ := exists_itemTokens p ps h
    refine ⟨_, (hscan.closed .closeList).opened .openList, fun stack => ?_⟩
    rw [List.foldl_cons, List.foldl_append]
    change push (ts.foldl push (.firstItem stack)) .closeList = _
    rw [hfirst, hitems, List.append_nil]
    change settle (.array _ true) stack = _
    rw [List.reverse_reverse]

/-! ## Maps -/

/-- The members of a map: the key as written, the value, and the text of the member. -/
abbrev Members := List (Bytes × Value × Bytes)

/-- The bytes are a text of a member. -/
def ReadsMember (key : Bytes) (v : Value) (bs : Bytes) : Prop :=
  ∃ ts, Scans bs (.string key :: .colon :: ts) ∧ Builds ts v

/-- The text of a member with no space in it, from its key, its value and the text of that. -/
def memberText (m : Bytes × Value × Bytes) : Bytes := 0x22 :: m.1 ++ 0x22 :: 0x3A :: m.2.2

theorem readsMember_memberText {m : Bytes × Value × Bytes} (hkey : Passes m.1)
    (h : Reads m.2.1 m.2.2) : ReadsMember m.1 m.2.1 (memberText m) := by
  obtain ⟨ts, hscan, hbuild⟩ := h
  refine ⟨ts, ?_, hbuild⟩
  simpa [memberText] using hkey.scans.join .colon hscan

theorem exists_memberTokens (m : Bytes × Value × Bytes) (ms : Members)
    (h : ∀ q ∈ m :: ms, ReadsMember q.1 q.2.1 q.2.2) :
    ∃ ts, Scans (commaSeparated ((m :: ms).map (·.2.2))) (.string m.1 :: ts) ∧
      ∀ members stack, ts.foldl push (.colon members m.1 stack) =
        .members (((m :: ms).map fun q => (q.1, q.2.1)).reverse ++ members) stack := by
  induction ms generalizing m with
  | nil =>
    obtain ⟨ts, hscan, hbuild⟩ := h m List.mem_cons_self
    refine ⟨.colon :: ts, hscan, ?_⟩
    intro members stack
    exact hbuild (.map members m.1 :: stack)
  | cons n ns ih =>
    obtain ⟨ts, hscan, hbuild⟩ := h m List.mem_cons_self
    obtain ⟨us, hscans, hmembers⟩ := ih n fun q hq => h q (List.mem_cons_of_mem _ hq)
    refine ⟨.colon :: ts ++ .comma :: .string n.1 :: us, hscan.join .comma hscans, ?_⟩
    intro members stack
    rw [List.cons_append, List.foldl_cons, List.foldl_append]
    change (.comma :: .string n.1 :: us).foldl push
      (ts.foldl push (.value (.map members m.1 :: stack))) = _
    rw [hbuild]
    change us.foldl push (.colon ((m.1, m.2.1) :: members) n.1 stack) = _
    rw [hmembers]
    simp

/-- Texts of the members, with commas between and braces around, are a text of the map. -/
theorem reads_object {ms : Members} (h : ∀ m ∈ ms, ReadsMember m.1 m.2.1 m.2.2) :
    Reads (.object (ms.map fun m => (m.1, m.2.1)) true)
      (0x7B :: commaSeparated (ms.map (·.2.2)) ++ [0x7D]) := by
  cases ms with
  | nil => exact ⟨_, (Token.scans_nil.closed .closeMap).opened .openMap, fun _ => rfl⟩
  | cons m ms =>
    obtain ⟨ts, hscan, hmembers⟩ := exists_memberTokens m ms h
    refine ⟨_, (hscan.closed .closeMap).opened .openMap, fun stack => ?_⟩
    rw [List.foldl_cons, List.foldl_append, List.foldl_cons]
    change push (ts.foldl push (.colon [] m.1 stack)) .closeMap = _
    rw [hmembers, List.append_nil]
    change settle (.object _ true) stack = _
    rw [List.reverse_reverse]

/-! ## Values and the text the writer gives them -/

/-- The value is read back from its own text. -/
def ReadsBack (v : Value) : Prop := Reads v v.render

theorem renderItems_eq_map (vs : List Value) : Value.renderItems vs = vs.map Value.render := by
  induction vs with
  | nil => rfl
  | cons v vs ih => rw [Value.renderItems, ih, List.map_cons]

theorem renderMembers_eq_map (ms : List (Bytes × Value)) :
    Value.renderMembers ms = ms.map fun m => memberText (m.1, m.2, m.2.render) := by
  induction ms with
  | nil => rfl
  | cons m ms ih => rw [Value.renderMembers, ih, List.map_cons, Value.renderMember, memberText]

theorem readsBack_ofList {vs : List Value} (h : ∀ v ∈ vs, ReadsBack v) :
    ReadsBack (.ofList vs) := by
  have hitems : ∀ p ∈ vs.map fun v => (v, v.render), Reads p.1 p.2 := by
    intro p hp
    obtain ⟨v, hv, rfl⟩ := List.mem_map.mp hp
    exact h v hv
  have hreads := reads_array hitems
  rw [List.map_map, List.map_map] at hreads
  change Reads (.array vs true) (Value.array vs true).render
  rw [Value.render, renderItems_eq_map]
  simpa [Function.comp_def] using hreads

theorem readsBack_ofMembers {ms : List (String × Value)} (h : ∀ m ∈ ms, ReadsBack m.2) :
    ReadsBack (.ofMembers ms) := by
  let parts : Members := ms.map fun m => (quote m.1, m.2, memberText (quote m.1, m.2, m.2.render))
  have hparts : ∀ p ∈ parts, ReadsMember p.1 p.2.1 p.2.2 := by
    intro p hp
    obtain ⟨m, hm, rfl⟩ := List.mem_map.mp hp
    exact readsMember_memberText (Token.passes_quote m.1) (h m hm)
  have hreads := reads_object hparts
  rw [List.map_map, List.map_map] at hreads
  rw [ReadsBack, Value.ofMembers, Value.render, renderMembers_eq_map, List.map_map]
  exact hreads

/-- **A text that reads as a value is read as that value.** -/
theorem Reads.read_eq {α : Type} {v : Value} {bs : Bytes} (h : Reads v bs) (reader : Reader α) :
    read reader bs = reader v := by
  rw [read, h.parse]
  cases hv : reader v <;> simp [hv, bind, Except.bind]

/-- **Reading the text of a value is reading the value.** -/
theorem read_render {α : Type} {v : Value} (h : ReadsBack v) (reader : Reader α) :
    read reader v.render = reader v :=
  Reads.read_eq h reader

end BucketAdmin.Json
