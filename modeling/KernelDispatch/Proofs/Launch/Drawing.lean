import KernelDispatch.Launch.Mixture
import Mathlib.Algebra.Order.BigOperators.Group.List
import Mathlib.Algebra.Order.Field.Basic
import Mathlib.Algebra.Order.Field.Rat
import Mathlib.Data.List.Induction
import Mathlib.Order.Interval.Set.Defs
import Mathlib.Tactic.Linarith
import Mathlib.Tactic.NormNum

/-!
# Drawing from a mixture

Templates are added and tasks are drawn, in any order. Read over fractions, where sums do not
round, drawing inverts the distribution that the probabilities describe: a draw between zero
and one falls into the share of one template, and that template is the one that is drawn.

Which size a task has depends on its template alone. The invariant behind this counts the
draws: the stream of the `i`-th template stands as many places further as `i` was drawn, and
the source as many places as tasks were drawn in all. Adding a template at the end moves no
share and no stream, and a refusal changes nothing at all, so the count is the whole history
that the next task depends on.

## Main definitions

* `Mixture.Falls` — the template into whose share a draw falls.
* `Mixture.Session` — a mixture and a source, and what the calls have answered.
* `Mixture.Sampled` — the answers that a list of calls should get.
* `Mixture.InverseSampling` — what holds of a session and of its next draw.

## Main results

* `Mixture.Falls.eq`, `Mixture.falls_pick` — a draw falls into one share, the one that is picked.
* `Mixture.Stands.next` — what the next draw does.
* `Mixture.inverse_sampling` — every session samples by the inverse of its distribution.
-/

namespace KernelDispatch

/-- A random word stands for a draw between zero and one. -/
theorem Source.drawOfWord_mem (word : UInt32) :
    (Source.drawOfWord word : Rat) ∈ Set.Ico (0 : Rat) 1 := by
  have hword : word.toNat / 256 < 16777216 := by
    have := word.toNat_lt
    omega
  have hlt : ((word.toNat / 256 : Nat) : Rat) < ((16777216 : Nat) : Rat) := by
    exact_mod_cast hword
  have hpos : (0 : Rat) < ((16777216 : Nat) : Rat) := by norm_num
  constructor
  · exact div_nonneg (Nat.cast_nonneg _) (Nat.cast_nonneg _)
  · exact (div_lt_one hpos).2 hlt

/-- A template from which some tasks were drawn. -/
def Template.after (t : Template) (count : Nat) : Template := { t with drawn := t.drawn + count }

@[simp] theorem Template.after_zero (t : Template) : t.after 0 = t := rfl

@[simp] theorem Template.advance_after (t : Template) (count : Nat) :
    (t.after count).advance = t.after (count + 1) := rfl

namespace Mixture

/-- A draw takes a task of the `i`-th template. The stream of this template moves on, and so
does the source. -/
def Yields {α : Type} [Scalar α] (m : Mixture α) (s : Source α) (i : Nat) : Prop :=
  ∃ t, m.templates[i]? = some t ∧
    m.next s = (.ok t.sample, { m with templates := m.templates.set i t.advance }, s.advance)

/-- A draw takes one template only, since it moves the stream of that one. -/
theorem Yields.eq {α : Type} [Scalar α] {m : Mixture α} {s : Source α} {i j : Nat}
    (hi : m.Yields s i) (hj : m.Yields s j) : i = j := by
  obtain ⟨t, ht, hnext⟩ := hi
  obtain ⟨t', -, hnext'⟩ := hj
  by_contra hij
  rw [hnext] at hnext'
  have hsame : m.templates.set i t.advance = m.templates.set j t'.advance := by
    injection hnext' with hanswer hrest
    injection hrest with hmixture hsource
    injection hmixture
  have hat := congrArg (fun ts => ts[i]?) hsame
  simp only [List.getElem?_set_ne (Ne.symm hij), ht] at hat
  rw [List.getElem?_set_self (List.getElem?_eq_some_iff.1 ht).1] at hat
  have hdrawn : t.drawn + 1 = t.drawn := congrArg Template.drawn (Option.some.inj hat)
  omega

/-! ## Shares -/

section Shares

variable {ws : List Rat} {w draw : Rat} {i j : Nat}

/-- Where the share of the `i`-th template begins. -/
def mark (ws : List Rat) (i : Nat) : Rat := (ws.take i).sum

/-- The ends of all shares. -/
def marks (ws : List Rat) : List Rat := (List.range ws.length).map fun i => mark ws (i + 1)

/-- A draw falls into the share of the `i`-th template, which lies between what the templates
before it and what they and it add up to. The last share takes what is missing to one. -/
def Falls (ws : List Rat) (draw : Rat) (i : Nat) : Prop :=
  i < ws.length ∧ (draw ∈ Set.Ico (mark ws i) (mark ws (i + 1)) ∨
    i + 1 = ws.length ∧ draw ∈ Set.Ico ws.sum 1)

@[simp] theorem mark_zero (ws : List Rat) : mark ws 0 = 0 := rfl

@[simp] theorem mark_length (ws : List Rat) : mark ws ws.length = ws.sum := by simp [mark]

@[simp] theorem length_marks (ws : List Rat) : (marks ws).length = ws.length := by simp [marks]

theorem getElem_marks (h : i < (marks ws).length) : (marks ws)[i] = mark ws (i + 1) := by
  simp [marks]

/-- One more template leaves the shares before it as they are. -/
theorem marks_concat (ws : List Rat) (w : Rat) : marks (ws ++ [w]) = marks ws ++ [ws.sum + w] := by
  have hbefore : ∀ i ∈ List.range ws.length, mark (ws ++ [w]) (i + 1) = mark ws (i + 1) := by
    intro i hi
    have hle : i + 1 ≤ ws.length := List.mem_range.1 hi
    rw [mark, mark, List.take_append_of_le_length hle]
  have hlast : mark (ws ++ [w]) (ws.length + 1) = ws.sum + w := by
    have hall := mark_length (ws ++ [w])
    simpa using hall
  rw [marks, List.length_append, List.length_singleton, List.range_succ, List.map_append,
    List.map_congr_left hbefore, List.map_singleton, hlast, marks]

/-- The end of the last share is the sum of all probabilities. -/
theorem total_marks (ts : List Template) (ws : List Rat) :
    total { templates := ts, offsets := marks ws } = ws.sum := by
  rcases List.eq_nil_or_concat ws with rfl | ⟨ws, w, rfl⟩
  · rfl
  · simp [total, marks_concat]

theorem mark_le_mark (hws : ∀ w ∈ ws, 0 ≤ w) (hij : i ≤ j) : mark ws i ≤ mark ws j :=
  (List.take_sublist_take_left hij).sum_le_sum fun w hw => hws w (List.mem_of_mem_take hw)

theorem mark_le_sum (hws : ∀ w ∈ ws, 0 ≤ w) (i : Nat) : mark ws i ≤ ws.sum :=
  (List.take_sublist i ws).sum_le_sum hws

/-- The shares do not overlap. -/
theorem Falls.not_before (hws : ∀ w ∈ ws, 0 ≤ w) (hi : Falls ws draw i) (hj : Falls ws draw j) :
    ¬ i < j := by
  intro hij
  obtain ⟨-, ⟨-, hbelow⟩ | ⟨hlast, -⟩⟩ := hi
  · obtain ⟨-, ⟨habove, -⟩ | ⟨-, habove, -⟩⟩ := hj
    · exact absurd (lt_of_lt_of_le hbelow (mark_le_mark hws hij)) (not_lt.2 habove)
    · exact absurd (lt_of_lt_of_le hbelow (mark_le_sum hws (i + 1))) (not_lt.2 habove)
  · have hj := hj.1
    omega

theorem Falls.eq (hws : ∀ w ∈ ws, 0 ≤ w) (hi : Falls ws draw i) (hj : Falls ws draw j) :
    i = j :=
  Nat.le_antisymm (Nat.le_of_not_lt (Falls.not_before hws hj hi))
    (Nat.le_of_not_lt (Falls.not_before hws hi hj))

/-- The template that is picked is the one into whose share the draw falls. -/
theorem falls_pick {m : Mixture Rat} (hoffsets : m.offsets = marks ws) (hws : ws ≠ [])
    (hdraw : draw ∈ Set.Ico (0 : Rat) 1) : Falls ws draw (m.pick draw) := by
  have hlength : 0 < ws.length := List.length_pos_iff.2 hws
  unfold pick
  rw [hoffsets]
  cases hfind : (marks ws).findIdx? (fun offset => Scalar.less draw offset) with
  | none =>
      have hbeyond := List.findIdx?_eq_none_iff.1 hfind ws.sum (by
        rw [List.mem_iff_getElem]
        refine ⟨ws.length - 1, by simpa using hlength, ?_⟩
        rw [getElem_marks, Nat.sub_add_cancel hlength, mark_length])
      have habove : ws.sum ≤ draw := by simpa [Scalar.less] using hbeyond
      rw [Option.getD_none, length_marks]
      exact ⟨by omega, .inr ⟨by omega, habove, hdraw.2⟩⟩
  | some i =>
      obtain ⟨hi, hbelow, hfirst⟩ := List.findIdx?_eq_some_iff_getElem.1 hfind
      rw [getElem_marks] at hbelow
      have hlt : draw < mark ws (i + 1) := by simpa [Scalar.less] using hbelow
      refine ⟨by simpa using hi, .inl ⟨?_, hlt⟩⟩
      cases i with
      | zero => exact hdraw.1
      | succ i =>
          have hbefore := hfirst i (Nat.lt_succ_self i)
          rw [getElem_marks] at hbefore
          show mark ws (i + 1) ≤ draw
          simpa [Scalar.less] using hbefore

end Shares

/-! ## Sessions -/

/-- What is registered at once: a template, and how likely it is to be drawn. -/
structure Entry where
  probability : Rat
  template : Template

/-- A call to a mixture. -/
inductive Call where
  | add (e : Entry)
  | next

/-- What a draw answers. -/
abbrev Answer := Except (Refusal Rat) Task

/-- A mixture and the source of its draws, and what the draws have answered so far. -/
structure Session where
  mixture : Mixture Rat := {}
  source : Source Rat
  answers : List Answer := []

namespace Session

/-- What the next draw answers, and the mixture and the source after it. -/
def next (s : Session) : Answer × Mixture Rat × Source Rat := s.mixture.next s.source

/-- The session after a call. -/
def play (s : Session) : Call → Session
  | .add e => { s with mixture := s.mixture.add e.probability e.template }
  | .next =>
      let (answer, mixture, source) := s.next
      { mixture, source, answers := s.answers ++ [answer] }

/-- A draw answers with a task of the `i`-th template: with its next size and otherwise as it
was registered. The stream of this template moves on, and so does the source. -/
def Takes (s : Session) (i : Nat) : Prop :=
  ∃ t, s.mixture.templates[i]? = some t ∧
    s.next =
      (.ok t.sample, { s.mixture with templates := s.mixture.templates.set i t.advance },
        s.source.advance)

end Session

/-- The session after some calls, from a mixture without templates. -/
def run (draws : Nat → Rat) (calls : List Call) : Session :=
  calls.foldl Session.play { source := { draws } }

/-- What the calls have registered. -/
def registered (calls : List Call) : List Entry :=
  calls.filterMap fun
    | .add e => some e
    | .next => none

/-- The probabilities of the entries. -/
def weights (entries : List Entry) : List Rat := entries.map Entry.probability

/-- The probabilities add up to one, but for what rounding may have done to them. -/
def AddUp (entries : List Entry) : Prop :=
  entries ≠ [] ∧ |(weights entries).sum - 1| ≤ 1 / 10000

/-- Why nothing can be drawn from the entries. -/
def Refuses (entries : List Entry) : Refusal Rat → Prop
  | .noTemplates => entries = []
  | .total sum => entries ≠ [] ∧ sum = (weights entries).sum ∧ 1 / 10000 < |sum - 1|

/-- The answers that a list of calls should get, and the templates that are drawn on the way.
Each task takes one draw, and its size is the first one of its template that no task before
it had. -/
inductive Sampled (draws : Nat → Rat) : List Call → List Nat → List Answer → Prop where
  | start : Sampled draws [] [] []
  | added {calls picks answers} (e : Entry) (before : Sampled draws calls picks answers) :
      Sampled draws (calls ++ [.add e]) picks answers
  | refused {calls picks answers r} (before : Sampled draws calls picks answers)
      (why : Refuses (registered calls) r) :
      Sampled draws (calls ++ [.next]) picks (answers ++ [.error r])
  | drawn {calls picks answers i e} (before : Sampled draws calls picks answers)
      (sum : AddUp (registered calls)) (entry : (registered calls)[i]? = some e)
      (falls : Falls (weights (registered calls)) (draws picks.length) i) :
      Sampled draws (calls ++ [.next]) (picks ++ [i])
        (answers ++ [.ok { e.template.task with
          geometry := e.template.sizes (e.template.drawn + picks.count i) }])

/-- A mixture and a source after some templates were registered and some were picked. -/
structure Stands (draws : Nat → Rat) (entries : List Entry) (picks : List Nat)
    (m : Mixture Rat) (s : Source Rat) : Prop where
  templates : m.templates = entries.mapIdx fun i e => e.template.after (picks.count i)
  offsets : m.offsets = marks (weights entries)
  source : s = { draws, used := picks.length }
  picked : ∀ i ∈ picks, i < entries.length

/-- What holds of a session after its calls, and of the draw that may come next. -/
structure InverseSampling (draws : Nat → Rat) (calls : List Call) : Prop where
  /-- The answers are the right ones, each task has taken one draw and moved the stream of its
  own template, and nothing else has moved. -/
  course : ∃ picks, Sampled draws calls picks (run draws calls).answers ∧
    Stands draws (registered calls) picks (run draws calls).mixture (run draws calls).source
  /-- A draw fails if there is nothing to draw from, or if the probabilities do not add up. -/
  fails : (∃ r, (run draws calls).next.1 = .error r) ↔
    registered calls = [] ∨ 1 / 10000 < |(weights (registered calls)).sum - 1|
  /-- A draw that fails leaves the source and the streams where they are. -/
  unmoved : ∀ r, (run draws calls).next.1 = .error r →
    (run draws calls).next.2 = ((run draws calls).mixture, (run draws calls).source)
  /-- Any other draw answers with a task of one template. -/
  drawn : AddUp (registered calls) → ∃! i, (run draws calls).Takes i
  /-- It is the template into whose share the draw falls. -/
  shares : AddUp (registered calls) → ∀ i,
    (run draws calls).Takes i ↔ Falls (weights (registered calls)) (run draws calls).source.draw i

section Sessions

variable {draws : Nat → Rat} {calls : List Call} {entries : List Entry} {e : Entry}
  {picks : List Nat} {m : Mixture Rat} {s : Source Rat} {r : Refusal Rat} {i j : Nat}

@[simp] theorem registered_add (calls : List Call) (e : Entry) :
    registered (calls ++ [.add e]) = registered calls ++ [e] := by
  simp [registered]

@[simp] theorem registered_next (calls : List Call) :
    registered (calls ++ [.next]) = registered calls := by
  simp [registered]

theorem run_concat (draws : Nat → Rat) (calls : List Call) (call : Call) :
    run draws (calls ++ [call]) = (run draws calls).play call := by
  simp [run]

/-! ## What a call does -/

theorem Stands.start (draws : Nat → Rat) : Stands draws [] [] {} { draws } :=
  ⟨rfl, rfl, rfl, by simp⟩

theorem Stands.total_eq (h : Stands draws entries picks m s) :
    m.total = (weights entries).sum := by
  obtain ⟨ts, offsets⟩ := m
  have hoffsets : offsets = marks (weights entries) := h.offsets
  rw [hoffsets, total_marks]

theorem Stands.draw_eq (h : Stands draws entries picks m s) : s.draw = draws picks.length := by
  rw [h.source]
  rfl

/-- A template that was added was never picked before. -/
theorem Stands.add (h : Stands draws entries picks m s) (e : Entry) :
    Stands draws (entries ++ [e]) picks (m.add e.probability e.template) s := by
  have hnew : picks.count entries.length = 0 :=
    List.count_eq_zero.2 fun hmem => Nat.lt_irrefl _ (h.picked _ hmem)
  refine ⟨?_, ?_, h.source, ?_⟩
  · rw [List.mapIdx_concat, hnew, Template.after_zero, ← h.templates]
    rfl
  · have hmarks : marks (weights (entries ++ [e])) =
        marks (weights entries) ++ [(weights entries).sum + e.probability] := by
      simp [weights, marks_concat]
    rw [hmarks, ← h.offsets, ← h.total_eq]
    rfl
  · intro i hi
    have := h.picked i hi
    simp only [List.length_append, List.length_singleton]
    omega

theorem Stands.getElem?_templates (h : Stands draws entries picks m s)
    (hentry : entries[i]? = some e) :
    m.templates[i]? = some (e.template.after (picks.count i)) := by
  rw [h.templates, List.getElem?_mapIdx, hentry]
  rfl

/-- When a template is drawn, its stream is the only one that moves. -/
theorem Stands.drawn (h : Stands draws entries picks m s) (hentry : entries[i]? = some e) :
    Stands draws entries (picks ++ [i])
      { m with templates := m.templates.set i (e.template.after (picks.count i)).advance }
      s.advance := by
  obtain ⟨hi, heq⟩ := List.getElem?_eq_some_iff.1 hentry
  refine ⟨?_, h.offsets, ?_, ?_⟩
  · apply List.ext_getElem?
    intro j
    rw [List.getElem?_set, h.templates, List.length_mapIdx, List.getElem?_mapIdx,
      List.getElem?_mapIdx]
    by_cases hij : i = j
    · subst hij
      simp [hi, ← heq]
    · simp [hij]
  · rw [h.source]
    simp [Source.advance]
  · intro j hj
    rcases List.mem_append.1 hj with hj | hj
    · exact h.picked j hj
    · rw [List.mem_singleton.1 hj]
      exact hi

theorem weights_nonneg (h : ∀ e ∈ entries, 0 ≤ e.probability) : ∀ w ∈ weights entries, 0 ≤ w := by
  intro w hw
  obtain ⟨e, he, rfl⟩ := List.mem_map.1 hw
  exact h e he

theorem isOff_iff (sum : Rat) : isOff sum = true ↔ 1 / 10000 < |sum - 1| := by
  have htolerance : (tolerance : Rat) = 1 / 10000 := rfl
  have hmagnitude : Scalar.magnitude (sum - Scalar.one) = |sum - 1| := by
    unfold Scalar.magnitude
    have hone : (Scalar.one : Rat) = 1 := rfl
    have hzero : (Scalar.zero : Rat) = 0 := rfl
    rw [hone, hzero]
    split
    · rename_i hneg
      have hneg : sum - 1 < 0 := of_decide_eq_true hneg
      rw [abs_of_neg hneg, zero_sub]
    · rename_i hpos
      have hpos : ¬ sum - 1 < 0 := fun hneg => hpos (decide_eq_true hneg)
      rw [abs_of_nonneg (not_lt.1 hpos)]
  show decide (tolerance < Scalar.magnitude (sum - Scalar.one)) = true ↔ _
  rw [htolerance, hmagnitude, decide_eq_true_iff]

/-- The next draw is refused and moves nothing, or it takes the template into whose share it
falls. -/
theorem Stands.next (h : Stands draws entries picks m s)
    (hdraws : ∀ n, draws n ∈ Set.Ico (0 : Rat) 1) :
    (∃ r, Refuses entries r ∧ m.next s = (.error r, m, s)) ∨
      AddUp entries ∧ ∃ i e, entries[i]? = some e ∧ Falls (weights entries) s.draw i ∧
        m.next s = (.ok (e.template.after (picks.count i)).sample,
          { m with templates := m.templates.set i (e.template.after (picks.count i)).advance },
          s.advance) := by
  have hempty : m.offsets.isEmpty = true ↔ entries = [] := by
    rw [h.offsets]
    simp [marks, weights]
  have hoff : isOff m.total = true ↔ 1 / 10000 < |(weights entries).sum - 1| := by
    rw [isOff_iff, h.total_eq]
  by_cases hentries : entries = []
  · refine .inl ⟨.noTemplates, hentries, ?_⟩
    rw [Mixture.next, if_pos (hempty.2 hentries)]
  have hfilled : ¬ m.offsets.isEmpty = true := fun hnil => hentries (hempty.1 hnil)
  by_cases hsum : 1 / 10000 < |(weights entries).sum - 1|
  · refine .inl ⟨.total m.total, ⟨hentries, h.total_eq, ?_⟩, ?_⟩
    · rw [h.total_eq]
      exact hsum
    · rw [Mixture.next, if_neg hfilled, if_pos (hoff.2 hsum)]
  · have hweights : weights entries ≠ [] := by simpa [weights] using hentries
    have hdraw : s.draw ∈ Set.Ico (0 : Rat) 1 := h.draw_eq ▸ hdraws picks.length
    have hfalls := falls_pick h.offsets hweights hdraw
    have hindex : m.pick s.draw < entries.length := by simpa [weights] using hfalls.1
    have hentry : entries[m.pick s.draw]? = some entries[m.pick s.draw] :=
      List.getElem?_eq_getElem hindex
    refine .inr ⟨⟨hentries, not_lt.1 hsum⟩, m.pick s.draw, entries[m.pick s.draw], hentry,
      hfalls, ?_⟩
    rw [Mixture.next, if_neg hfilled, if_neg fun hsum' => hsum (hoff.1 hsum')]
    simp only [h.getElem?_templates hentry]

theorem not_addUp_iff : ¬ AddUp entries ↔
    entries = [] ∨ 1 / 10000 < |(weights entries).sum - 1| := by
  rw [AddUp, not_and_or, not_not, not_le]

theorem Refuses.not_addUp (h : Refuses entries r) : ¬ AddUp entries := by
  rw [not_addUp_iff]
  cases r with
  | noTemplates => exact .inl h
  | total sum =>
      obtain ⟨-, rfl, hoff⟩ := h
      exact .inr hoff

/-! ## What a list of calls does -/

/-- Each call leaves the templates and the source where the draws so far have brought them. -/
theorem exists_sampled (hdraws : ∀ n, draws n ∈ Set.Ico (0 : Rat) 1) (calls : List Call) :
    ∃ picks, Sampled draws calls picks (run draws calls).answers ∧
      Stands draws (registered calls) picks (run draws calls).mixture (run draws calls).source := by
  induction calls using List.reverseRecOn with
  | nil => exact ⟨[], .start, .start draws⟩
  | append_singleton calls call ih =>
      obtain ⟨picks, hsampled, hstands⟩ := ih
      rw [run_concat]
      cases call with
      | add e =>
          rw [registered_add]
          exact ⟨picks, .added e hsampled, hstands.add e⟩
      | next =>
          rw [registered_next]
          unfold Session.play Session.next
          rcases hstands.next hdraws with ⟨r, hwhy, hnext⟩ | ⟨hsum, i, e, hentry, hfalls, hnext⟩
          · rw [hnext]
            exact ⟨picks, .refused hsampled hwhy, hstands⟩
          · rw [hnext]
            rw [hstands.draw_eq] at hfalls
            exact ⟨picks ++ [i], .drawn hsampled hsum hentry hfalls, hstands.drawn hentry⟩

theorem Session.Takes.eq {s : Session} (hi : s.Takes i) (hj : s.Takes j) : i = j :=
  Yields.eq hi hj

/-- The draw after some calls inverts the distribution of what they have registered. -/
theorem inverse_sampling (hdraws : ∀ n, draws n ∈ Set.Ico (0 : Rat) 1)
    (hcalls : ∀ e ∈ registered calls, 0 ≤ e.probability) : InverseSampling draws calls := by
  obtain ⟨picks, hsampled, hstands⟩ := exists_sampled hdraws calls
  have hweights := weights_nonneg hcalls
  rcases hstands.next hdraws with ⟨r, hwhy, hnext⟩ | ⟨hsum, i, e, hentry, hfalls, hnext⟩
  · have hnot := hwhy.not_addUp
    refine ⟨⟨picks, hsampled, hstands⟩, ?_, ?_, ?_, ?_⟩
    · rw [Session.next, hnext]
      exact ⟨fun _ => not_addUp_iff.1 hnot, fun _ => ⟨r, rfl⟩⟩
    · intro _ _
      rw [Session.next, hnext]
    · intro hsum
      exact absurd hsum hnot
    · intro hsum
      exact absurd hsum hnot
  · have htakes : (run draws calls).Takes i := ⟨_, hstands.getElem?_templates hentry, hnext⟩
    refine ⟨⟨picks, hsampled, hstands⟩, ?_, ?_, ?_, ?_⟩
    · rw [Session.next, hnext]
      constructor
      · rintro ⟨r, hr⟩
        cases hr
      · intro hoff
        exact absurd hsum (not_addUp_iff.2 hoff)
    · intro r hr
      rw [Session.next, hnext] at hr
      cases hr
    · intro _
      exact ⟨i, htakes, fun j hj => hj.eq htakes⟩
    · intro _ j
      constructor
      · intro hj
        rw [hj.eq htakes]
        exact hfalls
      · intro hj
        rw [hj.eq hweights hfalls]
        exact htakes

end Sessions

/-- Two kernels. The small one gets a quarter of the draws, and the sizes of the large one grow
each time. Two draws come too early. -/
def smallAndLarge : List Call :=
  [.next,
    .add ⟨1 / 4, { task := { kernel := "small" }, sizes := fun _ => .line 16 }⟩,
    .next,
    .add ⟨3 / 4, {
      task := { kernel := "large" }
      sizes := fun n => .plane (64 * UInt64.ofNat (n + 1)) 64 8 8 }⟩,
    .next, .next, .next]

/-- Words that stand for a half and an eighth in turns. -/
def halfAndEighth (n : Nat) : UInt32 := if n % 2 = 0 then 0x80000000 else 0x20000000

theorem inverse_sampling_small_and_large :
    (∀ n, (Source.ofWords halfAndEighth).draws n ∈ Set.Ico (0 : Rat) 1) ∧
    (∀ e ∈ registered smallAndLarge, 0 ≤ e.probability) ∧
    InverseSampling (Source.ofWords halfAndEighth).draws smallAndLarge ∧
    (run (Source.ofWords halfAndEighth).draws smallAndLarge).answers.map
        (fun answer => answer.toOption.map fun task => (task.kernel, task.geometry)) =
      [none, none, some ("large", .plane 64 64 8 8), some ("small", .line 16),
        some ("large", .plane 128 64 8 8)] := by
  have hdraws (n : Nat) : (Source.ofWords halfAndEighth).draws n ∈ Set.Ico (0 : Rat) 1 :=
    Source.drawOfWord_mem _
  have hcalls : ∀ e ∈ registered smallAndLarge, 0 ≤ e.probability := by
    have hlarge : (0 : Rat) ≤ 3 / 4 := by norm_num
    simpa [registered, smallAndLarge] using hlarge
  exact ⟨hdraws, hcalls, inverse_sampling hdraws hcalls, by decide +kernel⟩

end Mixture

end KernelDispatch
