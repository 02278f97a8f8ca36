import BucketAdmin.Proofs.Json.Parse

/-!
# What stands first in a list

A text is read from left to right, and nothing that was read is taken back. The scanner only adds
to its tokens (`Token.prefix_tokens`), and a list whose first items are read begins with them,
whatever comes after: more items, a fault, or the end of the text (`Value.Reading.Begins`). So the
items whose texts stand first in a list are its first items (`parse_leading`).
-/

namespace BucketAdmin.Json

/-! ## Tokens -/

namespace Token

open Scanner (push start)

theorem suffix_ite {c : Prop} [Decidable c] {done : List Token} {s t : Scanner}
    (hs : done <:+ s.done) (ht : done <:+ t.done) : done <:+ (if c then s else t).done := by
  split
  · exact hs
  · exact ht

theorem suffix_begin (done : List Token) (b : UInt8) : done <:+ (Scanner.begin done b).done := by
  unfold Scanner.begin
  repeat' refine suffix_ite ?_ ?_
  all_goals first | exact List.suffix_rfl | exact List.suffix_cons _ _

theorem suffix_push (s : Scanner) (b : UInt8) : s.done <:+ (s.push b).done := by
  obtain ⟨done, mode⟩ := s
  have hnext : ∀ t : Token, done <:+ (Scanner.begin (t :: done) b).done := fun t =>
    (List.suffix_cons t done).trans (suffix_begin _ b)
  cases mode with
  | between => exact suffix_begin done b
  | word due token =>
    cases due with
    | nil => exact hnext token
    | cons c due =>
      unfold push
      dsimp only
      split
      · split
        · exact List.suffix_cons _ _
        · exact List.suffix_rfl
      · exact List.suffix_cons _ _
  | number part raw =>
    unfold push
    dsimp only
    split
    · exact List.suffix_rfl
    · exact hnext _
    · exact List.suffix_cons _ _
  | string escape raw =>
    unfold push
    dsimp only
    split
    · exact List.suffix_cons _ _
    · split
      · exact List.suffix_rfl
      · exact List.suffix_cons _ _
  | stuck => exact List.suffix_rfl

theorem suffix_foldl (s : Scanner) (bs : Bytes) : s.done <:+ (bs.foldl push s).done := by
  induction bs generalizing s with
  | nil => exact List.suffix_rfl
  | cons b bs ih => exact (suffix_push s b).trans (ih _)

theorem prefix_finish (s : Scanner) : s.done.reverse <+: s.finish := by
  obtain ⟨done, mode⟩ := s
  have hlast : ∀ t : Token, done.reverse <+: (t :: done).reverse := fun t =>
    List.reverse_prefix.mpr (List.suffix_cons t done)
  cases mode with
  | between | stuck => exact List.prefix_rfl
  | word due token => cases due <;> exact hlast _
  | number | string => exact hlast _

/-- The tokens scanned so far come first. -/
theorem prefix_tokens (bs rest : Bytes) :
    (bs.foldl push start).done.reverse <+: tokens (bs ++ rest) := by
  unfold tokens
  rw [List.foldl_append]
  exact (List.reverse_prefix.mpr (suffix_foldl _ rest)).trans (prefix_finish _)

end Token

/-! ## Values -/

namespace Value

/-- The outermost of these open containers is a list that begins with the items. -/
inductive Begins (items : List Value) : List Frame → Prop
  | outermost (later : List Value) : Begins items [.list (later ++ items.reverse)]
  | within (f : Frame) {stack : List Frame} (h : Begins items stack) : Begins items (f :: stack)

/-- What is read is a list that begins with the items. -/
def Reading.Begins (items : List Value) : Reading → Prop
  | .value stack | .firstItem stack | .firstKey stack | .key _ stack | .colon _ _ stack
  | .members _ stack => Value.Begins items stack
  | .items xs stack => Value.Begins items (.list xs :: stack)
  | .complete v _ => ∃ later closed, v = .array (items ++ later) closed

open Reading (push settle beginValue?)

variable {items xs : List Value} {stack : List Frame} {r : Reading}

theorem begins_settle (h : Begins items stack) (v : Value) : (settle v stack).Begins items := by
  cases h with
  | outermost later => exact .outermost (v :: later)
  | within f h =>
    cases f with
    | list xs => exact .within _ h
    | map ms key => exact h

/-- A list that is closed is the outermost one, or an item of a container around it. -/
theorem begins_closed (h : Begins items (.list xs :: stack)) :
    (settle (.array xs.reverse true) stack).Begins items := by
  cases h with
  | outermost later => exact ⟨later.reverse, true, by simp⟩
  | within _ h => exact begins_settle h _

theorem begins_foldl_cut (h : Begins items stack) (v : Value) :
    ∃ later closed, stack.foldl Frame.cut v = .array (items ++ later) closed := by
  induction h generalizing v with
  | outermost later => exact ⟨later.reverse ++ [v], false, by simp [Frame.cut]⟩
  | within f _ ih => exact ih (f.cut v)

theorem begins_cutOff (h : r.Begins items) :
    ∃ later closed, r.cutOff = .array (items ++ later) closed := by
  cases r with
  | items xs stack =>
    cases h with
    | outermost later => exact ⟨later.reverse, false, by simp [Reading.cutOff]⟩
    | within _ h => exact begins_foldl_cut h _
  | colon ms key stack => exact begins_foldl_cut (.within (.map ms key) h) _
  | value | firstItem | firstKey | key | members => exact begins_foldl_cut h _
  | complete v clean => exact h

theorem begins_beginValue (h : Begins items stack) {cut : Value}
    (hcut : ∃ later closed, cut = .array (items ++ later) closed) (t : Token) :
    ((beginValue? stack t).getD (.complete cut false)).Begins items := by
  cases t with
  | null | bool | number | string => exact begins_settle h _
  | openList | openMap => exact h
  | closeList | closeMap | comma | colon | stray => exact hcut

theorem begins_push (h : r.Begins items) (t : Token) : (r.push t).Begins items := by
  have hcut := begins_cutOff h
  unfold push
  split
  · exact begins_settle h _
  · exact h
  · exact begins_closed h
  · exact begins_settle h _
  · exact h
  · exact h
  · exact .within _ h
  · exact h
  · exact begins_settle h _
  · exact begins_beginValue h hcut _
  · exact begins_beginValue (.within _ h) hcut _
  · exact hcut

theorem begins_foldl_push (h : r.Begins items) (ts : List Token) :
    (ts.foldl push r).Begins items := by
  induction ts generalizing r with
  | nil => exact h
  | cons t ts ih => exact ih (begins_push h t)

theorem begins_finish (h : r.Begins items) :
    ∃ later closed, r.finish.1 = .array (items ++ later) closed := by
  cases r with
  | complete v clean => exact h
  | _ => exact begins_cutOff h

end Value

open Value (commaSeparated)
open Value.Reading (push)

/-- **The items whose texts stand first in a list are its first items**, and nothing that follows
them and a comma changes that. -/
theorem parse_leading {ps : Items} (hne : ps ≠ []) (h : ∀ p ∈ ps, Reads p.1 p.2) (rest : Bytes) :
    ∃ later closed, (parse (0x5B :: commaSeparated (ps.map (·.2)) ++ 0x2C :: rest)).1 =
      .array (ps.map (·.1) ++ later) closed := by
  obtain ⟨p, ps, rfl⟩ := List.exists_cons_of_ne_nil hne
  obtain ⟨ts, hscan, hfirst, hitems⟩ := exists_itemTokens p ps h
  have hlist : ts.foldl push (.firstItem []) = .items ((p :: ps).map (·.1)).reverse [] := by
    rw [hfirst, hitems, List.append_nil]
  have hbegins : (ts.foldl push (.firstItem [])).Begins ((p :: ps).map (·.1)) := by
    rw [hlist]
    exact .outermost []
  obtain ⟨more, hmore⟩ : Token.openList :: ts <+: tokens
      (0x5B :: commaSeparated ((p :: ps).map (·.2)) ++ 0x2C :: rest) := by
    have hprefix := Token.prefix_tokens
      (0x5B :: commaSeparated ((p :: ps).map (·.2)) ++ [0x2C]) rest
    rw [List.foldl_append, List.foldl_cons, List.foldl_nil, Token.Scanner.start,
      ((hscan.opened .openList) []).push_mark .comma, List.append_nil, List.reverse_cons,
      List.reverse_reverse, List.append_assoc _ [0x2C]] at hprefix
    exact (List.prefix_append _ _).trans hprefix
  unfold parse
  rw [← hmore, List.foldl_append, List.foldl_cons]
  exact Value.begins_finish (Value.begins_foldl_push hbegins more)

end BucketAdmin.Json
