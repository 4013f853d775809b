import CardBattle.Session

/-!
# Sessions and timelines

A timeline keeps every battle since the last replacement that has not been undone, however
many these are, and counts how many of them can be undone: one more after an action, but no
more than the settings say, one less when an action is undone, and none after a replacement.
A session shows the end of such a timeline: the battle in play, and behind it exactly the
battles that can be undone (`Timeline.view`).  Whatever the session is asked for, it answers as
the timeline does, and so it shows the end of the same timeline after any number of requests
(`session_refines_timeline`).
-/

namespace CardBattle

open Json (decode)

namespace Session

/-- What a session can be asked for. -/
inductive Request
  | act (action : Action)
  | actText (text : String)
  | undo
  | replace (b : Battle)

/-- The session after a request, unless it is refused. -/
def serve (s : Session) : Request → Except SessionError Session
  | .act action => (s.apply action).map (·.2)
  | .actText text => (s.applyText text).map (·.2)
  | .undo => s.undo
  | .replace b => s.replace b

/-- The session after a request, which leaves it as it is if it is refused. -/
def after (s : Session) (request : Request) : Session :=
  match s.serve request with
  | .ok s' => s'
  | .error _ => s

/-- The session after one request after another. -/
def afterAll (s : Session) (requests : List Request) : Session :=
  requests.foldl after s

end Session

/-- The battles in play since the last replacement but for those that were undone: the present
one, and those before it, the latest first, of which the first ones can be undone. -/
structure Timeline (rules : Ruleset) where
  battle : Battle
  past : List Battle
  undoable : Nat
  undoable_le_past : undoable ≤ past.length
  undoable_le_depth : undoable ≤ rules.settings.undoDepth.toNat

namespace Timeline

variable {rules : Ruleset}

/-- The timeline of a single battle. -/
def single (rules : Ruleset) (b : Battle) : Timeline rules :=
  { battle := b
    past := []
    undoable := 0
    undoable_le_past := Nat.zero_le _
    undoable_le_depth := Nat.zero_le _ }

/-- The timeline that goes on with a battle. -/
def push (t : Timeline rules) (b : Battle) : Timeline rules :=
  { battle := b
    past := t.battle :: t.past
    undoable := min (t.undoable + 1) rules.settings.undoDepth.toNat
    undoable_le_past :=
      Nat.le_trans (Nat.min_le_left _ _) (Nat.succ_le_succ t.undoable_le_past)
    undoable_le_depth := Nat.min_le_right _ _ }

/-- The timeline after an action. -/
def act (t : Timeline rules) (action : Action) : Except SessionError (Timeline rules) :=
  match rules.resolve t.battle action with
  | .error stop => .error (.stopped stop)
  | .ok resolution => .ok (t.push resolution.battle)

/-- The timeline without its present battle, unless none can be undone. -/
def undo : Timeline rules → Except SessionError (Timeline rules)
  | ⟨_, _, 0, _, _⟩ => .error .nothingToUndo
  | ⟨_, [], _ + 1, hpast, _⟩ => absurd hpast (Nat.not_succ_le_zero _)
  | ⟨_, b :: past, undoable + 1, hpast, hdepth⟩ =>
      .ok ⟨b, past, undoable, Nat.le_of_succ_le_succ hpast, Nat.le_of_succ_le hdepth⟩

/-- The timeline after a request, unless it is refused. -/
def serve (t : Timeline rules) : Session.Request → Except SessionError (Timeline rules)
  | .act action => t.act action
  | .actText text =>
      match Json.readText decode text with
      | .error fault => .error (.text fault)
      | .ok action => t.act action
  | .undo => t.undo
  | .replace b =>
      match b.corruption? with
      | none => .ok (single rules b)
      | some corruption => .error (.stopped (.rejected (.corrupt corruption)))

/-- The timeline after a request, which leaves it as it is if it is refused. -/
def after (t : Timeline rules) (request : Session.Request) : Timeline rules :=
  match t.serve request with
  | .ok t' => t'
  | .error _ => t

/-- The timeline after one request after another. -/
def afterAll (t : Timeline rules) (requests : List Session.Request) : Timeline rules :=
  requests.foldl after t

/-- The session that shows the end of a timeline. -/
def view (t : Timeline rules) : Session :=
  { rules, battle := t.battle, history := t.past.take t.undoable }

variable {t : Timeline rules}

theorem length_view (t : Timeline rules) :
  t.view.history.length = t.undoable
  := List.length_take_of_le t.undoable_le_past

/-- With one battle more, the oldest one is forgotten just if as many are remembered as the
depth says. -/
theorem remember_take {depth n : Nat} {past : List Battle} (hpast : n ≤ past.length)
    (hdepth : n ≤ depth) (b : Battle) :
  Session.remember depth b (past.take n) = (b :: past).take (min (n + 1) depth)
  := by
  have hlonger : b :: past.take n = (b :: past).take (n + 1) := List.take_succ_cons.symm
  have hlength : ((b :: past).take (n + 1)).length = n + 1 :=
    List.length_take_of_le (Nat.succ_le_succ hpast)
  rw [Session.remember, hlonger, hlength]
  split
  · next hfull =>
    obtain rfl : n = depth := by omega
    rw [List.dropLast_eq_take, hlength, List.take_take, Nat.add_sub_cancel, Nat.min_comm]
  · next hroom => rw [Nat.min_eq_left (by omega)]

/-- The session goes on with the battle with which the timeline goes on. -/
theorem view_push (t : Timeline rules) (b : Battle) :
  (t.push b).view
    = { t.view with
        battle := b
        history := Session.remember rules.settings.undoDepth.toNat t.battle t.view.history }
  := by
  rw [view, view, remember_take t.undoable_le_past t.undoable_le_depth]
  rfl

theorem apply_view (t : Timeline rules) (action : Action) :
  (t.view.apply action).map (·.2) = (t.act action).map view
  := by
  rw [Session.apply, act, show t.view.rules.resolve t.view.battle = rules.resolve t.battle from rfl]
  cases rules.resolve t.battle action with
  | error stop => rfl
  | ok resolution =>
    dsimp only [Except.map]
    rw [view_push]
    rfl

theorem undo_view (t : Timeline rules) :
  t.view.undo = t.undo.map view
  := by
  match t with
  | ⟨_, _, 0, _, _⟩ => rfl
  | ⟨_, [], _ + 1, hpast, _⟩ => exact absurd hpast (Nat.not_succ_le_zero _)
  | ⟨_, b :: past, undoable + 1, hpast, hdepth⟩ => rfl

/-- The session answers every request as the timeline does. -/
theorem serve_view (t : Timeline rules) (request : Session.Request) :
  t.view.serve request = (t.serve request).map view
  := by
  cases request with
  | act action => apply apply_view
  | actText text =>
    rw [Session.serve, Session.applyText, serve]
    cases (Json.readText decode text : Except Json.ReadFault Action) with
    | error fault => rfl
    | ok action => apply apply_view
  | undo => apply undo_view
  | replace b =>
    rw [Session.serve, Session.replace, serve]
    cases b.corruption? with
    | none => rfl
    | some corruption => rfl

theorem after_view (t : Timeline rules) (request : Session.Request) :
  t.view.after request = (t.after request).view
  := by
  rw [Session.after, after, serve_view]
  cases t.serve request with
  | error e => rfl
  | ok t' => rfl

/-- The session shows the end of the timeline after any number of requests. -/
theorem afterAll_view (t : Timeline rules) (requests : List Session.Request) :
  t.view.afterAll requests = (t.afterAll requests).view
  := by
  induction requests generalizing t with
  | nil => rfl
  | cons request rest ih =>
    rw [Session.afterAll, afterAll, List.foldl_cons, List.foldl_cons, after_view]
    apply ih

theorem undo_eq_error_iff :
  t.view.undo = .error .nothingToUndo ↔ t.undoable = 0
  := by
  rw [← length_view, Session.undo]
  cases t.view.history with
  | nil => simp
  | cons b history => simp

end Timeline

/-- After any requests a session that began with a battle has the battle in play of the
timeline that began with it, and remembers exactly those of its past battles that can be
undone, in their order.  An action can be undone unless there are none.  The next request is
refused by both for the same reason, which leaves the session as it is, or both accept it, and
the session shows the timeline again. -/
theorem session_refines_timeline (rules : Ruleset) (b : Battle)
    (requests : List Session.Request) :
  let s := Session.afterAll { rules, battle := b } requests
  let t := (Timeline.single rules b).afterAll requests
  s.battle = t.battle
    ∧ s.history = t.past.take t.undoable ∧ s.history.length = t.undoable
    ∧ (s.undo = .error .nothingToUndo ↔ t.undoable = 0)
    ∧ ∀ request, s.serve request = (t.serve request).map Timeline.view
      ∧ ∀ e, s.serve request = .error e → s.after request = s ∧ t.after request = t
  := by
  intro s t
  have hview : s = t.view := (Timeline.single rules b).afterAll_view requests
  have hserve : ∀ request, s.serve request = (t.serve request).map Timeline.view := by
    intro request
    rw [hview]
    apply t.serve_view
  refine ⟨by rw [hview]; rfl, by rw [hview]; rfl, ?_, ?_, ?_⟩
  · rw [hview]
    apply t.length_view
  · rw [hview]
    apply Timeline.undo_eq_error_iff
  · intro request
    refine ⟨hserve request, ?_⟩
    intro e he
    constructor
    · rw [Session.after, he]
    · rw [hserve] at he
      rw [Timeline.after]
      cases hanswer : t.serve request with
      | error _ => rfl
      | ok t' =>
        rw [hanswer] at he
        cases he

end CardBattle
