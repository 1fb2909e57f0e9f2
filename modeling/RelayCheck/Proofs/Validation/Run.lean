import RelayCheck.Validation.Rule

/-!
# Looking at things one after the other

A rule follows the events of a walk with a state of its own, and the check of a list of uses keeps
what was reported before. Both look at items one after the other: each look finds something and
leaves a state for the next.

The module introduces `collect`, all that is found by such looks, with the laws for lists that are
put together, and `findings_eq_collect`, which reads the findings of a rule that way.
-/

namespace RelayCheck

variable {α β γ σ : Type}

/-- What is found by looking at items one after the other, and the state after the last look. -/
def collect (look : σ → α → List β × σ) : σ → List α → List β × σ
  | state, [] => ([], state)
  | state, item :: rest =>
    let now := look state item
    let later := collect look now.2 rest
    (now.1 ++ later.1, later.2)

/-- What is found in two lists is what is found in the first, then what is found in the second from
the state that the first leaves. -/
theorem collect_append (look : σ → α → List β × σ) (state : σ) (first second : List α) :
    collect look state (first ++ second) =
      ((collect look state first).1 ++ (collect look (collect look state first).2 second).1,
        (collect look (collect look state first).2 second).2) := by
  induction first generalizing state with
  | nil => rfl
  | cons item rest ih => simp only [List.cons_append, collect, ih, List.append_assoc]

/-- One item is looked at once. -/
theorem collect_singleton (look : σ → α → List β × σ) (state : σ) (item : α) :
    collect look state [item] = look state item := by
  simp only [collect, List.append_nil]

/-- Looking at the items of several lists is looking at the lists. -/
theorem collect_flatMap (look : σ → α → List β × σ) (items : γ → List α) (state : σ)
    (lists : List γ) :
    collect look state (lists.flatMap items) =
      collect (fun state list => collect look state (items list)) state lists := by
  induction lists generalizing state with
  | nil => rfl
  | cons list rest ih => rw [List.flatMap_cons, collect_append, ih]; rfl

/-- Items at which nothing happens may be left out. -/
theorem collect_of_quiet {look : σ → α → List β × σ} {items : List α}
    (hquiet : ∀ item ∈ items, ∀ state, look state item = ([], state)) (state : σ) :
    collect look state items = ([], state) := by
  induction items generalizing state with
  | nil => rfl
  | cons item rest ih =>
    rw [List.forall_mem_cons] at hquiet
    rw [collect, hquiet.1, ih hquiet.2]
    rfl

/-- Looks that find the same in the same states find the same in all. -/
theorem collect_congr {look other : σ → α → List β × σ} {items : List α}
    (hsame : ∀ item ∈ items, ∀ state, look state item = other state item) (state : σ) :
    collect look state items = collect other state items := by
  induction items generalizing state with
  | nil => rfl
  | cons item rest ih =>
    rw [List.forall_mem_cons] at hsame
    rw [collect, collect, hsame.1, ih hsame.2]

/-- Items that may turn into nothing are looked at where they do not. -/
theorem collect_filterMap (look : σ → β → List γ × σ) (turn : α → Option β) (state : σ)
    (items : List α) :
    collect look state (items.filterMap turn) =
      collect (fun state item => (turn item).elim ([], state) (look state)) state items := by
  induction items generalizing state with
  | nil => rfl
  | cons item rest ih =>
    cases hturn : turn item with
    | none =>
      rw [List.filterMap_cons_none hturn, ih, collect, hturn]
      rfl
    | some turned =>
      rw [List.filterMap_cons_some hturn, collect, ih, collect, hturn]
      rfl

namespace Rule

/-- What a rule finds on a walk is what it finds by looking at its events. -/
theorem findings_eq_collect (rule : Rule) (events : List Event) :
    rule.findings events = (collect rule.step rule.start events).1 := by
  have hfrom : ∀ state : rule.State,
      (rule.traceFrom state events).flatten = (collect rule.step state events).1 := by
    induction events with
    | nil => exact fun _ => rfl
    | cons event rest ih =>
      intro state
      rw [traceFrom, List.flatten_cons, ih]
      rfl
  exact hfrom rule.start

/-- What a rule looks for does not change what it finds on a walk. -/
@[simp]
theorem findings_searching (rule : Rule) (searches : Event → List Operation)
    (events : List Event) : (rule.searching searches).findings events = rule.findings events := by
  rw [findings, trace_searching, findings]

end Rule

end RelayCheck
