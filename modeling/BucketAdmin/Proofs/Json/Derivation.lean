import BucketAdmin.Proofs.Except
import BucketAdmin.Proofs.Json.Lexing

/-!
# What is read was spelled

The converse of `Spells.reads`: a text that is read to its end as one value is a text of that value
in the grammar (`spells_of_parse`), so the reader accepts just the grammar (`parse_eq_iff`). The
reader leaves behind it the texts of the containers still open (`Opened`), and what has been read
of the innermost one (`Held`).
-/

namespace BucketAdmin.Json

open Token (Text Lexed)
open Value (Frame Reading commaSeparated)
open Value.Reading (push settle beginValue? finish)

/-! ## Parts so far -/

/-- Parts with a comma after each. -/
def eachThenComma (parts : List Bytes) : Bytes := parts.flatMap (· ++ [0x2C])

theorem eachThenComma_append (parts : List Bytes) (part : Bytes) :
    eachThenComma (parts ++ [part]) = eachThenComma parts ++ part ++ [0x2C] := by
  simp [eachThenComma]

theorem commaSeparated_append (parts : List Bytes) (part : Bytes) :
    commaSeparated (parts ++ [part]) = eachThenComma parts ++ part := by
  induction parts with
  | nil => rfl
  | cons first rest ih =>
    have hne : ∃ next more, rest ++ [part] = next :: more := by
      cases rest with
      | nil => exact ⟨_, _, rfl⟩
      | cons next more => exact ⟨_, _, rfl⟩
    obtain ⟨next, more, hmore⟩ := hne
    have hcons : commaSeparated (first :: (rest ++ [part])) =
        first ++ 0x2C :: commaSeparated (rest ++ [part]) := by
      rw [hmore]
      rfl
    rw [List.cons_append, hcons, ih]
    simp [eachThenComma]

/-! ## Values -/

variable {v : Value} {bs w text : Bytes} {stack : List Frame} {r : Reading} {t : Token}
  {done : List Token}

def keyValue (m : SpacedMember) : Bytes × Value := (m.key, m.value)

/-- The bytes are the beginning of a text in which these containers are open, the innermost first,
and each waits for a value. -/
inductive Opened : List Frame → Bytes → Prop
  | nil : Opened [] []
  | list {stack : List Frame} {bs w : Bytes} {ps : Items} (h : Opened stack bs) (hw : IsBlank w)
      (hps : ∀ p ∈ ps, Spells p.1 p.2) :
      Opened (.list (ps.map (·.1)).reverse :: stack)
        (bs ++ w ++ 0x5B :: eachThenComma (ps.map (·.2)))
  | map {stack : List Frame} {bs w before key between : Bytes} {ms : List SpacedMember}
      (h : Opened stack bs) (hw : IsBlank w) (hms : ∀ m ∈ ms, m.WellFormed)
      (hvalues : ∀ m ∈ ms, Spells m.value m.text) (hbefore : IsBlank before) (hkey : IsText key)
      (hbetween : IsBlank between) :
      Opened (.map (ms.map keyValue).reverse key :: stack)
        (bs ++ w ++ 0x7B :: (eachThenComma (ms.map (·.bytes)) ++
          (before ++ (0x22 :: key ++ [0x22]) ++ between ++ [0x3A])))

/-- The bytes are what was read so far. Nothing is said of a text that is cut off. -/
inductive Held : Reading → Bytes → Prop
  | value {stack : List Frame} {bs : Bytes} (h : Opened stack bs) : Held (.value stack) bs
  | firstItem {stack : List Frame} {bs w : Bytes} (h : Opened stack bs) (hw : IsBlank w) :
      Held (.firstItem stack) (bs ++ w ++ [0x5B])
  | items {stack : List Frame} {bs w : Bytes} {ps : Items} {p : Value × Bytes}
      (h : Opened stack bs) (hw : IsBlank w) (hps : ∀ q ∈ ps, Spells q.1 q.2)
      (hp : Spells p.1 p.2) :
      Held (.items (p.1 :: (ps.map (·.1)).reverse) stack)
        (bs ++ w ++ 0x5B :: (eachThenComma (ps.map (·.2)) ++ p.2))
  | firstKey {stack : List Frame} {bs w : Bytes} (h : Opened stack bs) (hw : IsBlank w) :
      Held (.firstKey stack) (bs ++ w ++ [0x7B])
  | key {stack : List Frame} {bs w : Bytes} {ms : List SpacedMember} (h : Opened stack bs)
      (hw : IsBlank w) (hms : ∀ m ∈ ms, m.WellFormed) (hvalues : ∀ m ∈ ms, Spells m.value m.text) :
      Held (.key (ms.map keyValue).reverse stack)
        (bs ++ w ++ 0x7B :: eachThenComma (ms.map (·.bytes)))
  | colon {stack : List Frame} {bs w before key : Bytes} {ms : List SpacedMember}
      (h : Opened stack bs) (hw : IsBlank w) (hms : ∀ m ∈ ms, m.WellFormed)
      (hvalues : ∀ m ∈ ms, Spells m.value m.text) (hbefore : IsBlank before) (hkey : IsText key) :
      Held (.colon (ms.map keyValue).reverse key stack)
        (bs ++ w ++ 0x7B :: (eachThenComma (ms.map (·.bytes)) ++
          (before ++ (0x22 :: key ++ [0x22]))))
  | members {stack : List Frame} {bs w : Bytes} {ms : List SpacedMember} {m : SpacedMember}
      (h : Opened stack bs) (hw : IsBlank w) (hms : ∀ n ∈ ms ++ [m], n.WellFormed)
      (hvalues : ∀ n ∈ ms ++ [m], Spells n.value n.text) :
      Held (.members (keyValue m :: (ms.map keyValue).reverse) stack)
        (bs ++ w ++ 0x7B :: (eachThenComma (ms.map (·.bytes)) ++ m.bytes))
  | complete {v : Value} {bs : Bytes} (h : Spells v bs) : Held (.complete v true) bs
  | cut {v : Value} {bs : Bytes} : Held (.complete v false) bs

/-- A value that was read in full is the next part of the innermost container. -/
theorem held_settle (h : Opened stack bs) (hv : Spells v text) :
    Held (settle v stack) (bs ++ text) := by
  cases h with
  | nil => exact .complete hv
  | @list stack bs w ps h hw hps =>
    have hheld := Held.items (p := (v, text)) h hw hps hv
    simpa [settle] using hheld
  | @map stack bs w before key between ms h hw hms hvalues hbefore hkey hbetween =>
    have hheld := Held.members (m := ⟨before, key, between, v, text⟩) h hw
      (List.forall_mem_append.mpr ⟨hms, List.forall_mem_singleton.mpr ⟨hbefore, hkey, hbetween⟩⟩)
      (List.forall_mem_append.mpr ⟨hvalues, List.forall_mem_singleton.mpr hv⟩)
    simpa [settle, keyValue, SpacedMember.bytes] using hheld

theorem Spells.before (h : Spells v text) (hw : IsBlank w) : Spells v (w ++ text) := by
  have hpadded := Spells.padded hw isBlank_nil h
  rwa [List.append_nil] at hpadded

theorem Spells.after (h : Spells v text) (hw : IsBlank w) : Spells v (text ++ w) :=
  .padded isBlank_nil hw h

theorem held_beginValue? (h : Opened stack bs) (hw : IsBlank w) (ht : Text t text)
    (hr : beginValue? stack t = some r) : Held r (bs ++ w ++ text) := by
  have hscalar : ∀ {v : Value}, Spells v text → Held (settle v stack) (bs ++ w ++ text) := by
    intro v hv
    rw [List.append_assoc]
    exact held_settle h (hv.before hw)
  cases ht with
  | mark hm =>
    cases hm with
    | openList => exact Option.some.inj hr ▸ .firstItem h hw
    | openMap => exact Option.some.inj hr ▸ .firstKey h hw
    | comma | colon | closeMap | closeList => cases hr
  | null => exact Option.some.inj hr ▸ hscalar .null
  | bool_true => exact Option.some.inj hr ▸ hscalar .bool_true
  | bool_false => exact Option.some.inj hr ▸ hscalar .bool_false
  | number hn => exact Option.some.inj hr ▸ hscalar (.number hn)
  | string hs => exact Option.some.inj hr ▸ hscalar (.string hs)

theorem held_beginValue (h : Opened stack bs) (hw : IsBlank w) (ht : Text t text) (cut : Value) :
    Held ((beginValue? stack t).getD (.complete cut false)) (bs ++ w ++ text) := by
  cases hr : beginValue? stack t with
  | none => exact .cut
  | some r => exact held_beginValue? h hw ht hr

theorem spells_items_spaced {ps : Items} {p : Value × Bytes} (hps : ∀ q ∈ ps, Spells q.1 q.2)
    (hp : Spells p.1 p.2) (hw : IsBlank w) : ∀ q ∈ ps ++ [(p.1, p.2 ++ w)], Spells q.1 q.2 :=
  List.forall_mem_append.mpr ⟨hps, List.forall_mem_singleton.mpr (hp.after hw)⟩

/-- A container that closes is the next part of the one around it. -/
theorem held_closed {body all : Bytes} (h : Opened stack bs) (hw : IsBlank w)
    (hv : Spells v body) (hall : all = bs ++ w ++ body) : Held (settle v stack) all := by
  rw [hall, List.append_assoc]
  exact held_settle h (hv.before hw)

namespace SpacedMember

def spaced (m : SpacedMember) (w : Bytes) : SpacedMember := { m with text := m.text ++ w }

theorem bytes_spaced (m : SpacedMember) (w : Bytes) : (m.spaced w).bytes = m.bytes ++ w := by
  simp [spaced, bytes]

end SpacedMember

section Members

variable {ms : List SpacedMember} {m : SpacedMember}

theorem wellFormed_spaced (h : ∀ n ∈ ms ++ [m], n.WellFormed) (w : Bytes) :
    ∀ n ∈ ms ++ [m.spaced w], n.WellFormed := by
  obtain ⟨hms, hm⟩ := List.forall_mem_append.mp h
  obtain ⟨hbefore, hkey, hbetween⟩ := List.forall_mem_singleton.mp hm
  exact List.forall_mem_append.mpr
    ⟨hms, List.forall_mem_singleton.mpr ⟨hbefore, hkey, hbetween⟩⟩

theorem spells_spaced (h : ∀ n ∈ ms ++ [m], Spells n.value n.text) (hw : IsBlank w) :
    ∀ n ∈ ms ++ [m.spaced w], Spells n.value n.text := by
  obtain ⟨hms, hm⟩ := List.forall_mem_append.mp h
  have hlast : Spells (m.spaced w).value (m.spaced w).text :=
    (List.forall_mem_singleton.mp hm).after hw
  exact List.forall_mem_append.mpr ⟨hms, List.forall_mem_singleton.mpr hlast⟩

end Members

/-! ## Steps -/

theorem Held.push (h : Held r bs) (hw : IsBlank w) (ht : Text t text) :
    Held (r.push t) (bs ++ w ++ text) := by
  unfold Reading.push
  split
  · -- an empty list
    cases h with
    | firstItem h hw₀ =>
      cases ht with
      | mark hm =>
        cases hm
        exact held_closed h hw₀ (@Spells.array [] w hw nofun) (by simp [commaSeparated])
  · cases h with
    | @items stack bs₀ w₀ ps p h hw₀ hps hp =>
      cases ht with
      | mark hm =>
        cases hm
        have hopened := Opened.list h hw₀ (spells_items_spaced hps hp hw)
        rw [List.map_append, List.map_append, List.map_singleton, List.map_singleton,
          eachThenComma_append] at hopened
        refine .value ?_
        simpa using hopened
  · cases h with
    | @items stack bs₀ w₀ ps p h hw₀ hps hp =>
      cases ht with
      | mark hm =>
        cases hm
        have hv := Spells.array isBlank_nil (spells_items_spaced hps hp hw)
        rw [List.map_append, List.map_append, List.map_singleton, List.map_singleton,
          commaSeparated_append] at hv
        rw [List.reverse_cons, List.reverse_reverse]
        exact held_closed h hw₀ hv (by simp)
  · -- an empty map
    cases h with
    | firstKey h hw₀ =>
      cases ht with
      | mark hm =>
        cases hm
        exact held_closed h hw₀ (@Spells.object [] w hw nofun nofun) (by simp [commaSeparated])
  · cases h with
    | firstKey h hw₀ =>
      cases ht with
      | mark hm => cases hm
      | string hk =>
        have hnone : ∀ m ∈ ([] : List SpacedMember), m.WellFormed := nofun
        have hheld := Held.colon h hw₀ hnone nofun hw hk
        simpa [eachThenComma] using hheld
  · cases h with
    | key h hw₀ hms hvalues =>
      cases ht with
      | mark hm => cases hm
      | string hk =>
        have hheld := Held.colon h hw₀ hms hvalues hw hk
        simpa using hheld
  · cases h with
    | colon h hw₀ hms hvalues hbefore hkey =>
      cases ht with
      | mark hm =>
        cases hm
        have hopened := Opened.map h hw₀ hms hvalues hbefore hkey hw
        refine .value ?_
        simpa using hopened
  · cases h with
    | @members stack bs₀ w₀ ms m h hw₀ hms hvalues =>
      cases ht with
      | mark hm =>
        cases hm
        have hheld := Held.key h hw₀ (wellFormed_spaced hms w) (spells_spaced hvalues hw)
        rw [List.map_append, List.map_append, List.map_singleton, List.map_singleton,
          eachThenComma_append, SpacedMember.bytes_spaced] at hheld
        simpa [keyValue, SpacedMember.spaced] using hheld
  · cases h with
    | @members stack bs₀ w₀ ms m h hw₀ hms hvalues =>
      cases ht with
      | mark hm =>
        cases hm
        have hv := Spells.object isBlank_nil (wellFormed_spaced hms w)
          (spells_spaced hvalues hw)
        rw [List.map_append, List.map_append, List.map_singleton, List.map_singleton,
          commaSeparated_append, SpacedMember.bytes_spaced] at hv
        rw [List.reverse_cons, List.reverse_reverse]
        exact held_closed h hw₀ hv (by simp)
  · cases h with
    | value h => exact held_beginValue h hw ht _
  · cases h with
    | firstItem h hw₀ => exact held_beginValue (@Opened.list _ _ _ [] h hw₀ nofun) hw ht _
  · exact .cut

theorem held_foldl (h : Lexed done bs) : Held (done.reverse.foldl push (.value [])) bs := by
  induction h with
  | nil => exact .value .nil
  | next _ hw ht ih =>
    rw [List.reverse_cons, List.foldl_append]
    exact ih.push hw ht

theorem push_stray (r : Reading) : ∃ v, r.push .stray = .complete v false := by
  cases r <;> exact ⟨_, rfl⟩

/-- A fault of the scanner breaks the text off. -/
theorem foldl_push_of_stray {ts : List Token} (h : .stray ∈ ts) (r : Reading) :
    ∃ v, ts.foldl push r = .complete v false := by
  obtain ⟨before, after, rfl⟩ := List.append_of_mem h
  rw [List.foldl_append, List.foldl_cons]
  obtain ⟨v, hv⟩ := push_stray (before.foldl push r)
  exact ⟨v, by rw [hv, foldl_push_complete]⟩

/-- **What is read was spelled.** -/
theorem spells_of_parse (h : parse bs = (v, true)) : Spells v bs := by
  unfold parse at h
  rcases Token.lexed_tokens bs with hstray | ⟨text, w, hlexed, hw, rfl⟩
  · obtain ⟨u, hu⟩ := foldl_push_of_stray hstray (.value [])
    rw [hu] at h
    cases h
  · have hheld := held_foldl hlexed
    rw [List.reverse_reverse] at hheld
    generalize (tokens (text ++ w)).foldl push (.value []) = r at h hheld
    cases hheld with
    | complete hv =>
      cases h
      exact hv.after hw
    | _ => cases h

/-- **The reader accepts the texts of the grammar, and reads in each the value that it spells.** -/
theorem parse_eq_iff : parse bs = (v, true) ↔ Spells v bs :=
  ⟨spells_of_parse, Spells.parse⟩

theorem Reads.spells (h : Reads v bs) : Spells v bs := spells_of_parse h.parse

theorem read_eq_ok_iff {α : Type} {reader : Reader α} {a : α} :
    read reader bs = .ok a ↔ ∃ v, Spells v bs ∧ reader v = .ok a := by
  constructor
  · intro h
    rcases hparse : parse bs with ⟨v, clean⟩
    rw [read, hparse] at h
    obtain ⟨b, hb, h⟩ := bind_eq_ok.mp h
    cases clean with
    | false => cases h
    | true =>
      cases h
      exact ⟨v, parse_eq_iff.mp hparse, hb⟩
  · rintro ⟨v, hv, h⟩
    rw [hv.reads.read_eq, h]

/-- A map that was read to its end has legal keys. -/
theorem Spells.object_inv {ms : List (Bytes × Value)} {closed : Bool}
    (h : Spells (.object ms closed) bs) : closed = true ∧ ∀ m ∈ ms, IsText m.1 := by
  generalize hv : Value.object ms closed = v at h
  induction h with
  | object _ hms =>
    obtain ⟨rfl, rfl⟩ := Value.object.inj hv
    exact ⟨rfl, List.forall_mem_map.mpr fun m hm => (hms m hm).key⟩
  | padded _ _ _ ih => exact ih hv
  | _ => cases hv

theorem Spells.array_inv {items : List Value} {closed : Bool}
    (h : Spells (.array items closed) bs) : closed = true := by
  generalize hv : Value.array items closed = v at h
  induction h with
  | array => exact (Value.array.inj hv).2
  | padded _ _ _ ih => exact ih hv
  | _ => cases hv

end BucketAdmin.Json
