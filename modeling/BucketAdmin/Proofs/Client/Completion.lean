import Mathlib.Data.List.Induction
import BucketAdmin.Client.Pending

/-!
# Single completion

A completer and a pending result take their steps in any order that leaves each of them to its
owner: using up a side ends its steps (`Channel.move`). The steps so far alone tell what comes next
(`Tracks.move`, `tracks_play`): the first step that used up the completer decides what is found
(`outcome?`), and the pending result finds it once, unless it was dropped before (`Held`).

The two sides share a channel for one value that a library provides. All that is asked of it is that
a value is received once it is sent, that the loss of the sender is noticed, and that of the
receiver (`Oneshot.Lawful`). Then the two sides cannot be told from `Channel` by any sequence of
steps (`replies_handles`).
-/

namespace BucketAdmin.Client

variable {α σ τ : Type}

/-- A step of one of the two sides. -/
inductive Move (α : Type) where
  | complete (outcome : Outcome α)
  | dropCompleter
  | isAbandoned
  | poll
  | dropPending

/-- What comes of a step. -/
inductive Move.Reply (α : Type) where
  | done
  | abandoned (b : Bool)
  | polled (p : Poll α)
  /-- The side that would take the step is gone. -/
  | gone

/-! ## Sequences of steps -/

section Play

variable {step : σ → Move α → Move.Reply α × σ} {step' : τ → Move α → Move.Reply α × τ}

def play (step : σ → Move α → Move.Reply α × σ) (s : σ) (moves : List (Move α)) : σ :=
  moves.foldl (fun s m => (step s m).2) s

def replies (step : σ → Move α → Move.Reply α × σ) : σ → List (Move α) → List (Move.Reply α)
  | _, [] => []
  | s, m :: rest => (step s m).1 :: replies step (step s m).2 rest

/-- Where each step is answered alike, so is each sequence of steps. -/
theorem replies_eq_of_simulation {R : σ → τ → Prop}
    (hstep : ∀ s t m, R s t → (step s m).1 = (step' t m).1 ∧ R (step s m).2 (step' t m).2)
    {s : σ} {t : τ} (h : R s t) (moves : List (Move α)) :
    replies step s moves = replies step' t moves := by
  induction moves generalizing s t with
  | nil => rfl
  | cons m rest ih =>
    obtain ⟨hreply, hnext⟩ := hstep s t m h
    rw [replies, replies, hreply, ih hnext]

/-- Nothing comes of any later step once nothing comes of any step. -/
theorem replies_gone {s : σ} (h : ∀ m, step s m = (.gone, s)) (moves : List (Move α)) :
    replies step s moves = moves.map fun _ => .gone := by
  induction moves with
  | nil => rfl
  | cons m rest ih => rw [replies, h, ih, List.map_cons]

end Play

/-! ## Steps on a channel -/

namespace Channel

/-- Take a step, if its side is there. -/
def move (c : Channel α) : Move α → Move.Reply α × Channel α
  | .complete outcome => (c.complete? outcome).elim (.gone, c) (.done, ·)
  | .dropCompleter => c.dropCompleter?.elim (.gone, c) (.done, ·)
  | .isAbandoned => c.isAbandoned?.elim (.gone, c) fun b => (.abandoned b, c)
  | .poll => c.poll?.elim (.gone, c) fun found => (.polled found.1, found.2)
  | .dropPending => c.dropPending?.elim (.gone, c) (.done, ·)

end Channel

/-- What a step leaves to be found, if it uses up the completer. -/
def Move.ends (context : Context) : Move α → Option (Outcome α)
  | .complete outcome => some outcome
  | .dropCompleter => some (.error (.transport context "operation dropped before completing"))
  | .isAbandoned | .poll | .dropPending => none

/-- What is there to be found after some steps: the first that uses up the completer decides. -/
def outcome? (context : Context) (moves : List (Move α)) : Option (Outcome α) :=
  moves.findSome? (Move.ends context)

/-- The pending result is still with its caller: it was not dropped, and no poll was ready. -/
structure Held (context : Context) (moves : List (Move α)) : Prop where
  kept : .dropPending ∉ moves
  waited : ∀ before, before ++ [.poll] <+: moves → outcome? context before = none

/-- What a poll is to find. -/
def Poll.ofOutcome? : Option (Outcome α) → Poll α
  | none => .pending
  | some outcome => .ready outcome

section History

variable {context : Context} {moves : List (Move α)} {m : Move α}

theorem outcome?_append (moves later : List (Move α)) :
    outcome? context (moves ++ later) = (outcome? context moves).or (outcome? context later) :=
  List.findSome?_append

theorem outcome?_concat (moves : List (Move α)) (m : Move α) :
    outcome? context (moves ++ [m]) = (outcome? context moves).or (m.ends context) := by
  rw [outcome?_append]
  cases hm : m.ends context <;> simp [outcome?, hm]

theorem outcome?_eq_none_of_prefix {before : List (Move α)} (h : before <+: moves)
    (hnone : outcome? context moves = none) : outcome? context before = none := by
  obtain ⟨later, rfl⟩ := h
  rw [outcome?_append] at hnone
  exact (Option.or_eq_none_iff.mp hnone).1

theorem held_nil : Held context ([] : List (Move α)) :=
  ⟨List.not_mem_nil, fun before h => absurd (List.prefix_nil.mp h) (by simp)⟩

theorem held_concat : Held context (moves ++ [m]) ↔
    Held context moves ∧ m ≠ .dropPending ∧ (m = .poll → outcome? context moves = none) := by
  constructor
  · rintro ⟨hkept, hwaited⟩
    refine ⟨⟨fun h => hkept (List.mem_append_left _ h), fun before h => ?_⟩, ?_, ?_⟩
    · exact hwaited before (h.trans (List.prefix_append moves [m]))
    · rintro rfl
      exact hkept (List.mem_append_right _ List.mem_cons_self)
    · rintro rfl
      exact hwaited moves (List.prefix_refl _)
  · rintro ⟨⟨hkept, hwaited⟩, hdrop, hpoll⟩
    refine ⟨fun h => ?_, fun before h => ?_⟩
    · rcases List.mem_append.mp h with h | h
      · exact hkept h
      · exact hdrop (List.mem_singleton.mp h).symm
    · rcases List.prefix_concat_iff.mp h with heq | h
      · obtain ⟨rfl, hm⟩ := List.append_inj' heq rfl
        exact hpoll (List.singleton_inj.mp hm).symm
      · exact hwaited before h

/-- Where the completer is there, the pending result is lost only if it was dropped. -/
theorem held_iff_of_waiting (h : outcome? context moves = none) :
    Held context moves ↔ .dropPending ∉ moves := by
  refine ⟨Held.kept, fun hkept => ⟨hkept, fun before hbefore => ?_⟩⟩
  exact outcome?_eq_none_of_prefix ((List.prefix_append before _).trans hbefore) h

end History

/-! ## The steps so far tell what comes next -/

/-- What a completer leaves to be found. -/
def Completer.outcome? (context : Context) : Completer α → Option (Outcome α)
  | .waiting => none
  | .completed outcome => some outcome
  | .dropped => some (.error (.dropped context))

namespace Channel

variable {c : Channel α}

theorem completer_of_isOpen (h : c.isOpen = true) : c.completer = .waiting := by
  obtain ⟨context, completer, held⟩ := c
  cases completer with
  | waiting => rfl
  | completed outcome => cases h
  | dropped => cases h

theorem context_move (c : Channel α) (m : Move α) : (c.move m).2.context = c.context := by
  obtain ⟨context, completer, held⟩ := c
  cases m <;> cases completer <;> cases held <;> rfl

/-- What can be found is what could be found before, or else what the step leaves. -/
theorem outcome?_move (c : Channel α) (m : Move α) :
    (c.move m).2.completer.outcome? c.context =
      (c.completer.outcome? c.context).or (m.ends c.context) := by
  obtain ⟨context, completer, held⟩ := c
  cases m <;> cases completer <;> cases held <;> rfl

theorem held_move (c : Channel α) (m : Move α) : (c.move m).2.held = true ↔
    c.held = true ∧ m ≠ .dropPending ∧
      (m = .poll → c.completer.outcome? c.context = none) := by
  obtain ⟨context, completer, held⟩ := c
  cases m <;> cases completer <;> cases held <;>
    simp [move, complete?, dropCompleter?, isAbandoned?, poll?, dropPending?, isOpen,
      Completer.outcome?]

theorem reply_poll (h : c.held = true) :
    (c.move .poll).1 = .polled (.ofOutcome? (c.completer.outcome? c.context)) := by
  obtain ⟨context, completer, held⟩ := c
  cases h
  cases completer <;> rfl

theorem move_poll_of_not_held (h : c.held = false) : c.move .poll = (.gone, c) := by
  obtain ⟨context, completer, held⟩ := c
  cases h
  rfl

theorem move_isAbandoned (hwaiting : c.completer.outcome? c.context = none) :
    c.move .isAbandoned = (.abandoned !c.held, c) := by
  obtain ⟨context, completer, held⟩ := c
  cases completer with
  | waiting => rfl
  | completed outcome => cases hwaiting
  | dropped => cases hwaiting

theorem move_complete (hwaiting : c.completer.outcome? c.context = none) (outcome : Outcome α) :
    c.move (.complete outcome) = (.done, { c with completer := .completed outcome }) := by
  obtain ⟨context, completer, held⟩ := c
  cases completer with
  | waiting => rfl
  | completed outcome => cases hwaiting
  | dropped => cases hwaiting

/-- Nothing comes of any step once both sides are gone. -/
theorem move_eq_gone (hopen : c.isOpen = false) (hheld : c.held = false) (m : Move α) :
    c.move m = (.gone, c) := by
  obtain ⟨context, completer, held⟩ := c
  cases hheld
  cases completer with
  | waiting => cases hopen
  | completed outcome => cases m <;> rfl
  | dropped => cases m <;> rfl

end Channel

/-- The channel is as these steps leave it. -/
structure Tracks (context : Context) (moves : List (Move α)) (c : Channel α) : Prop where
  named : c.context = context
  completer : c.completer.outcome? context = outcome? context moves
  held : c.held = true ↔ Held context moves

namespace Tracks

variable {context : Context} {moves : List (Move α)} {c : Channel α}

theorem create (context : Context) : Tracks context [] (.create context : Channel α) :=
  ⟨rfl, rfl, iff_of_true rfl held_nil⟩

theorem move (h : Tracks context moves c) (m : Move α) :
    Tracks context (moves ++ [m]) (c.move m).2 := by
  obtain ⟨rfl, hcompleter, hheld⟩ := h
  refine ⟨c.context_move m, ?_, ?_⟩
  · rw [c.outcome?_move, outcome?_concat, hcompleter]
  · rw [c.held_move, held_concat, hheld, hcompleter]

theorem reply_poll (h : Tracks context moves c) (hheld : Held context moves) :
    (c.move .poll).1 = .polled (.ofOutcome? (outcome? context moves)) := by
  obtain ⟨rfl, hcompleter, hiff⟩ := h
  rw [Channel.reply_poll (hiff.mpr hheld), hcompleter]

theorem move_poll (h : Tracks context moves c) (hheld : ¬Held context moves) :
    c.move .poll = (.gone, c) :=
  Channel.move_poll_of_not_held (Bool.eq_false_iff.mpr (mt h.held.mp hheld))

theorem held_eq_false (h : Tracks context moves c) (hdropped : .dropPending ∈ moves) :
    c.held = false :=
  Bool.eq_false_iff.mpr fun hheld => (h.held.mp hheld).kept hdropped

theorem move_isAbandoned (h : Tracks context moves c) (hwaiting : outcome? context moves = none) :
    ∃ b, c.move .isAbandoned = (.abandoned b, c) ∧ (b = true ↔ .dropPending ∈ moves) := by
  obtain ⟨rfl, hcompleter, hiff⟩ := h
  refine ⟨!c.held, Channel.move_isAbandoned (hcompleter.trans hwaiting), ?_⟩
  rw [held_iff_of_waiting hwaiting] at hiff
  rw [Bool.not_eq_true', ← Bool.not_eq_true, hiff, Classical.not_not]

theorem replies_complete (h : Tracks context moves c) (hwaiting : outcome? context moves = none)
    (hdropped : .dropPending ∈ moves) (outcome : Outcome α) (later : List (Move α)) :
    replies Channel.move c (.complete outcome :: later) = .done :: later.map fun _ => .gone := by
  have hheld := h.held_eq_false hdropped
  obtain ⟨rfl, hcompleter, -⟩ := h
  have hgone : ∀ m, Channel.move { c with completer := .completed outcome } m =
      (.gone, { c with completer := .completed outcome }) :=
    Channel.move_eq_gone rfl hheld
  rw [replies, Channel.move_complete (hcompleter.trans hwaiting), replies_gone hgone]

end Tracks

/-- After any steps the channel is as those steps leave it. -/
theorem tracks_play (context : Context) (moves : List (Move α)) :
    Tracks context moves (play Channel.move (.create context) moves) := by
  induction moves using List.reverseRecOn with
  | nil => exact .create context
  | append_singleton moves m ih =>
    rw [play, List.foldl_append]
    exact ih.move m

/-! ## A channel for one value -/

/-- What comes of receiving. -/
inductive Receipt (β : Type) where
  | empty
  | value (b : β)
  /-- The sender is gone, and nothing was sent. -/
  | closed

/-- A channel for one value, as a library provides it. -/
structure Oneshot (β : Type) where
  State : Type
  fresh : State
  send : State → β → State
  dropSender : State → State
  isClosed : State → Bool
  receive : State → Receipt β × State
  dropReceiver : State → State

/-- What a library says of its channel. A state from which nothing is received still has its
sender, and one that is not closed its receiver. -/
structure Oneshot.Lawful {β : Type} (os : Oneshot β) : Prop where
  receive_fresh : (os.receive os.fresh).1 = .empty
  isClosed_fresh : os.isClosed os.fresh = false
  receive_send : ∀ s b, os.isClosed s = false → (os.receive s).1 = .empty →
    (os.receive (os.send s b)).1 = .value b
  receive_dropSender : ∀ s, os.isClosed s = false → (os.receive s).1 = .empty →
    (os.receive (os.dropSender s)).1 = .closed
  receive_again : ∀ s, (os.receive s).1 = .empty → (os.receive (os.receive s).2).1 = .empty
  isClosed_receive : ∀ s, (os.receive s).1 = .empty →
    os.isClosed (os.receive s).2 = os.isClosed s
  isClosed_dropReceiver : ∀ s, os.isClosed (os.dropReceiver s) = true

/-- A completer and a pending result over a channel for one outcome, and which of them are there. -/
structure Handles (os : Oneshot (Outcome α)) where
  context : Context
  shared : os.State
  completer : Bool
  pending : Bool

namespace Handles

variable {os : Oneshot (Outcome α)}

def create (os : Oneshot (Outcome α)) (context : Context) : Handles os :=
  ⟨context, os.fresh, true, true⟩

/-- Send the outcome, whether or not anybody receives it. -/
def complete (h : Handles os) (outcome : Outcome α) : Handles os :=
  { h with shared := os.send h.shared outcome, completer := false }

def ready (os : Oneshot (Outcome α)) (context : Context) (outcome : Outcome α) : Handles os :=
  (create os context).complete outcome

def poll (h : Handles os) : Poll α × Handles os :=
  match os.receive h.shared with
  | (.empty, shared) => (.pending, { h with shared })
  | (.value outcome, shared) => (.ready outcome, { h with shared, pending := false })
  | (.closed, shared) =>
    (.ready (.error (.transport h.context "operation dropped before completing")),
      { h with shared, pending := false })

/-- Take a step, if its side is there. -/
def move (h : Handles os) : Move α → Move.Reply α × Handles os
  | .complete outcome => if h.completer then (.done, h.complete outcome) else (.gone, h)
  | .dropCompleter =>
    if h.completer then (.done, { h with shared := os.dropSender h.shared, completer := false })
    else (.gone, h)
  | .isAbandoned => if h.completer then (.abandoned (os.isClosed h.shared), h) else (.gone, h)
  | .poll => if h.pending then (.polled h.poll.1, h.poll.2) else (.gone, h)
  | .dropPending =>
    if h.pending then (.done, { h with shared := os.dropReceiver h.shared, pending := false })
    else (.gone, h)

end Handles

/-- What is received of a completer. -/
def Completer.receipt : Completer α → Receipt (Outcome α)
  | .waiting => .empty
  | .completed outcome => .value outcome
  | .dropped => .closed

/-- The handles are where the channel is, as far as the sides that are there can tell. -/
structure Mirrors {os : Oneshot (Outcome α)} (h : Handles os) (c : Channel α) : Prop where
  context : h.context = c.context
  completer : h.completer = c.isOpen
  pending : h.pending = c.held
  isClosed : c.isOpen = true → os.isClosed h.shared = !c.held
  receive : c.held = true → (os.receive h.shared).1 = c.completer.receipt

namespace Mirrors

variable {os : Oneshot (Outcome α)} {h : Handles os} {c : Channel α}

theorem create (hos : os.Lawful) (context : Context) :
    Mirrors (.create os context) (.create context) :=
  ⟨rfl, rfl, rfl, fun _ => hos.isClosed_fresh, fun _ => hos.receive_fresh⟩

theorem complete (hos : os.Lawful) (hm : Mirrors h c) (hopen : c.completer = .waiting)
    (outcome : Outcome α) :
    Mirrors (h.complete outcome) { c with completer := .completed outcome } := by
  obtain ⟨context, completer, held⟩ := c
  cases hopen
  refine ⟨hm.context, rfl, hm.pending, nofun, fun hheld => ?_⟩
  cases hheld
  exact hos.receive_send _ _ (hm.isClosed rfl) (hm.receive rfl)

theorem dropCompleter (hos : os.Lawful) (hm : Mirrors h c) (hopen : c.completer = .waiting) :
    Mirrors { h with shared := os.dropSender h.shared, completer := false }
      { c with completer := .dropped } := by
  obtain ⟨context, completer, held⟩ := c
  cases hopen
  refine ⟨hm.context, rfl, hm.pending, nofun, fun hheld => ?_⟩
  cases hheld
  exact hos.receive_dropSender _ (hm.isClosed rfl) (hm.receive rfl)

theorem dropPending (hos : os.Lawful) (hm : Mirrors h c) :
    Mirrors { h with shared := os.dropReceiver h.shared, pending := false }
      { c with held := false } :=
  ⟨hm.context, hm.completer, rfl, fun _ => hos.isClosed_dropReceiver _, nofun⟩

/-- A poll finds the same, and uses up the pending result where it finds an outcome. -/
theorem poll (hos : os.Lawful) (hm : Mirrors h c) (hheld : c.held = true) :
    .polled h.poll.1 = (c.move .poll).1 ∧ Mirrors h.poll.2 (c.move .poll).2 := by
  obtain ⟨context, completer, held⟩ := c
  cases hheld
  have hreceive := hm.receive rfl
  rw [Handles.poll]
  cases hr : os.receive h.shared with
  | mk receipt shared =>
    rw [hr] at hreceive
    cases hreceive
    cases completer with
    | waiting =>
      have hempty : (os.receive h.shared).1 = .empty := congrArg Prod.fst hr
      have hagain := hos.receive_again _ hempty
      have hclosed := hos.isClosed_receive _ hempty
      rw [hr] at hagain hclosed
      exact ⟨rfl, hm.context, hm.completer, hm.pending,
        fun _ => hclosed.trans (hm.isClosed rfl), fun _ => hagain⟩
    | completed outcome =>
      exact ⟨rfl, hm.context, hm.completer, rfl, nofun, nofun⟩
    | dropped =>
      refine ⟨?_, hm.context, hm.completer, rfl, nofun, nofun⟩
      exact congrArg (fun x => Move.Reply.polled (.ready (.error (.transport x _)))) hm.context

theorem move (hos : os.Lawful) (hm : Mirrors h c) (m : Move α) :
    (h.move m).1 = (c.move m).1 ∧ Mirrors (h.move m).2 (c.move m).2 := by
  cases m with
  | complete outcome =>
    simp only [Handles.move, Channel.move, Channel.complete?, hm.completer]
    by_cases ho : c.isOpen = true
    · rw [if_pos ho, if_pos ho]
      exact ⟨rfl, hm.complete hos (Channel.completer_of_isOpen ho) outcome⟩
    · rw [if_neg ho, if_neg ho]
      exact ⟨rfl, hm⟩
  | dropCompleter =>
    simp only [Handles.move, Channel.move, Channel.dropCompleter?, hm.completer]
    by_cases ho : c.isOpen = true
    · rw [if_pos ho, if_pos ho]
      exact ⟨rfl, hm.dropCompleter hos (Channel.completer_of_isOpen ho)⟩
    · rw [if_neg ho, if_neg ho]
      exact ⟨rfl, hm⟩
  | isAbandoned =>
    simp only [Handles.move, Channel.move, Channel.isAbandoned?, hm.completer]
    by_cases ho : c.isOpen = true
    · rw [if_pos ho, if_pos ho, hm.isClosed ho]
      exact ⟨rfl, hm⟩
    · rw [if_neg ho, if_neg ho]
      exact ⟨rfl, hm⟩
  | poll =>
    by_cases hheld : c.held = true
    · rw [Handles.move, hm.pending, if_pos hheld]
      exact hm.poll hos hheld
    · rw [Handles.move, hm.pending, if_neg hheld,
        Channel.move_poll_of_not_held (Bool.eq_false_iff.mpr hheld)]
      exact ⟨rfl, hm⟩
  | dropPending =>
    simp only [Handles.move, Channel.move, Channel.dropPending?, hm.pending]
    by_cases hheld : c.held = true
    · rw [if_pos hheld, if_pos hheld]
      exact ⟨rfl, hm.dropPending hos⟩
    · rw [if_neg hheld, if_neg hheld]
      exact ⟨rfl, hm⟩

end Mirrors

/-- No sequence of steps tells the handles from the channel. -/
theorem replies_handles {os : Oneshot (Outcome α)} (hos : os.Lawful) {h : Handles os}
    {c : Channel α} (hm : Mirrors h c) (moves : List (Move α)) :
    replies Handles.move h moves = replies Channel.move c moves :=
  replies_eq_of_simulation (fun _ _ m hm => hm.move hos m) hm moves

/-- **A pending result is completed once.** Over any channel for one value that is as its library
says, a completer and a pending result answer every sequence of steps as `Channel` does, also where
the outcome is there from the start, which is as if it had been completed first. After any steps a
poll finds what the first step that used up the completer left, or nothing yet; it finds an outcome
once, and none after the pending result was dropped. A completer that is there is told whether that
has happened. If it has, completing has no effect but to use up the completer. -/
theorem single_completion (os : Oneshot (Outcome α)) (hos : os.Lawful) (context : Context) :
    (∀ moves, replies Handles.move (.create os context) moves =
      replies Channel.move (.create context) moves) ∧
    (∀ outcome moves,
      replies Handles.move (.ready os context outcome) moves =
        replies Channel.move (.ready context outcome) moves ∧
      replies Channel.move (.create context) (.complete outcome :: moves) =
        .done :: replies Channel.move (.ready context outcome) moves) ∧
    ∀ moves : List (Move α), let c := play Channel.move (.create context) moves
      (Held context moves → (c.move .poll).1 = .polled (.ofOutcome? (outcome? context moves))) ∧
      (¬Held context moves → c.move .poll = (.gone, c)) ∧
      (outcome? context moves = none →
        ∃ b, c.move .isAbandoned = (.abandoned b, c) ∧ (b = true ↔ .dropPending ∈ moves)) ∧
      (outcome? context moves = none → .dropPending ∈ moves → ∀ outcome later,
        replies Channel.move c (.complete outcome :: later) =
          .done :: later.map fun _ => .gone) := by
  have hcreate : Mirrors (.create os context) (.create context) := .create hos context
  refine ⟨replies_handles hos hcreate, fun outcome moves => ⟨?_, rfl⟩, ?_⟩
  · exact replies_handles hos (hcreate.complete hos rfl outcome) moves
  · intro moves c
    have htracks : Tracks context moves c := tracks_play context moves
    exact ⟨htracks.reply_poll, htracks.move_poll, htracks.move_isAbandoned,
      fun hwaiting hdropped => htracks.replies_complete hwaiting hdropped⟩

/-- A channel for one value: what the sender has left, and whether the receiver is gone. -/
def cell (β : Type) : Oneshot β where
  State := Receipt β × Bool
  fresh := (.empty, false)
  send s b := if s.2 then (.closed, true) else (.value b, false)
  dropSender s := (.closed, s.2)
  isClosed s := s.2
  receive
    | (.empty, closed) => (.empty, (.empty, closed))
    | (.value b, closed) => (.value b, (.closed, closed))
    | (.closed, closed) => (.closed, (.closed, closed))
  dropReceiver s := (s.1, true)

theorem lawful_cell (β : Type) : (cell β).Lawful where
  receive_fresh := rfl
  isClosed_fresh := rfl
  receive_send := by
    rintro ⟨left, closed⟩ b hclosed -
    cases hclosed
    rfl
  receive_dropSender _ _ _ := rfl
  receive_again := by
    rintro ⟨left, closed⟩ hempty
    cases left with
    | empty => rfl
    | value b => cases hempty
    | closed => cases hempty
  isClosed_receive := by
    rintro ⟨left, closed⟩ -
    cases left <;> rfl
  isClosed_dropReceiver _ := rfl

/-- Two outcomes of which the first is found once, a completer that is lost, and a caller who is. -/
theorem single_completion_cell :
    let context : Context := ⟨.info, none⟩
    let handles : Handles (cell (Outcome Nat)) := .create _ context
    replies Handles.move handles
        [.poll, .isAbandoned, .complete (.ok 7), .complete (.ok 8), .poll, .poll] =
      [.polled .pending, .abandoned false, .done, .gone, .polled (.ready (.ok 7)), .gone] ∧
    replies Handles.move handles [.dropCompleter, .isAbandoned, .poll] =
      [.done, .gone, .polled (.ready
        (.error (.transport context "operation dropped before completing")))] ∧
    replies Handles.move handles [.dropPending, .isAbandoned, .complete (.ok 7), .poll] =
      [.done, .abandoned true, .done, .gone] ∧
    ((play Channel.move (.create context) [.poll, .complete (.ok 7)]).move .poll).1 =
      .polled (.ready (.ok 7)) := by
  intro context handles
  obtain ⟨hsame, -, hhistory⟩ := single_completion (cell (Outcome Nat)) (lawful_cell _) context
  have hheld : Held context [.poll, .complete (.ok 7)] := by
    have hpolled : Held context ([] ++ [.poll] : List (Move Nat)) :=
      held_concat.mpr ⟨held_nil, nofun, fun _ => rfl⟩
    have hcompleted : Held context ([.poll] ++ [.complete (.ok 7)]) :=
      held_concat.mpr ⟨hpolled, nofun, nofun⟩
    exact hcompleted
  exact ⟨(hsame _).trans rfl, (hsame _).trans rfl, (hsame _).trans rfl, (hhistory _).1 hheld⟩

end BucketAdmin.Client
