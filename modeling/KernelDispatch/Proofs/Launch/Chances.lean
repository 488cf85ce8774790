import KernelDispatch.Proofs.Launch.Drawing
import KernelDispatch.Proofs.Number.Order

/-!
# Templates without a chance

Probabilities are singles, and any of them may be registered: zero, negative or no number. A
draw takes the first template whose share ends above it, and such a template has a probability
above zero: adding anything else would not have brought the end of a share above the draw, if
the end before it was not above the draw already. This holds although the sums are rounded.

Where no share ends above the draw, the last template is taken, and it is not asked which
probability it has. The sum of all probabilities does not prevent this, since it may be below
one by the tolerance, or no number at all.

## Main definitions

* `Mixture.Deed`, `Mixture.after` — a mixture that is filled and drawn from, in any order.
* `Mixture.Chances` — what a draw can take.

## Main results

* `Mixture.less_of_picked` — a share that ends above the draw has a probability above zero.
* `Mixture.chances` — which draws take a template without a chance.
-/

namespace KernelDispatch

/-- A template as it is before anything is drawn. -/
def Template.fresh (t : Template) : Template := { t with drawn := 0 }

namespace Mixture

/-- A template that is registered, and the probability it is registered with. -/
structure Offer where
  probability : Float32
  template : Template

/-- What is done to a mixture: a template is registered, or a task is drawn. -/
inductive Deed where
  | register (offer : Offer)
  | draw (source : Source Float32)

/-- The mixture after a deed. -/
def does (m : Mixture Float32) : Deed → Mixture Float32
  | .register offer => m.add offer.probability offer.template
  | .draw source => (m.next source).2.1

/-- The mixture after some deeds, from one without templates. -/
def after (deeds : List Deed) : Mixture Float32 := deeds.foldl does {}

/-- What was registered, in its order. -/
def offers (deeds : List Deed) : List Offer :=
  deeds.filterMap fun
    | .register offer => some offer
    | .draw _ => none

/-- The probabilities of what was registered. -/
def probabilities (deeds : List Deed) : List Float32 := (offers deeds).map Offer.probability

/-- What the next draw from a mixture can take. -/
structure Chances (deeds : List Deed) (s : Source Float32) : Prop where
  /-- A task is drawn where something was registered and the sum is not found to be off. -/
  succeeds : (∃ task, ((after deeds).next s).1 = .ok task) ↔
    offers deeds ≠ [] ∧ isOff (Scalar.sum (probabilities deeds)) = false
  /-- It is a task of one template, with one of the sizes that this template was registered
  with. -/
  yields : ∀ task, ((after deeds).next s).1 = .ok task →
    ∃ i offer, (after deeds).Yields s i ∧ (offers deeds)[i]? = some offer ∧
      ∃ n, task = { offer.template.task with geometry := offer.template.sizes n }
  /-- This template has a probability above zero, unless the last one has not and the draw is
  below no sum of the first probabilities. -/
  chance : ∀ i offer, (after deeds).Yields s i → (offers deeds)[i]? = some offer →
    (Scalar.less Scalar.zero offer.probability = false ↔
      (∃ last, (offers deeds).getLast? = some last ∧
        Scalar.less Scalar.zero last.probability = false) ∧
      ∀ k, Scalar.less s.draw (Scalar.sum ((probabilities deeds).take k)) = false)

section

variable {deeds : List Deed} {m : Mixture Float32} {s : Source Float32} {offer : Offer}
  {es : List Offer} {i : Nat}

/-! ## Where the shares end -/

/-- The sum of the first `k` probabilities. -/
def bound (es : List Offer) (k : Nat) : Float32 :=
  Scalar.sum ((es.map Offer.probability).take k)

theorem bound_succ {k : Nat} (h : es[k]? = some offer) :
    bound es (k + 1) = bound es k + offer.probability := by
  have hprobability : (es.map Offer.probability)[k]? = some offer.probability := by
    rw [List.getElem?_map, h]
    rfl
  rw [bound, bound, List.take_add_one, hprobability, Scalar.sum, Scalar.sum]
  simp

/-- Templates and shares after these were registered and some were drawn. -/
structure Holds (es : List Offer) (m : Mixture Float32) : Prop where
  templates : m.templates.map Template.fresh = es.map fun e => e.template.fresh
  offsets : m.offsets = (List.range es.length).map fun k => bound es (k + 1)

theorem Holds.length_offsets (h : Holds es m) : m.offsets.length = es.length := by
  rw [h.offsets, List.length_map, List.length_range]

theorem Holds.getElem_offsets (h : Holds es m) (hi : i < m.offsets.length) :
    m.offsets[i] = bound es (i + 1) := by
  simp [h.offsets]

theorem Holds.total (h : Holds es m) : m.total = Scalar.sum (es.map Offer.probability) := by
  have hlast : m.total = bound es es.length := by
    rw [Mixture.total, h.offsets]
    cases hlength : es.length with
    | zero => rfl
    | succ n => simp [List.range_succ]
  rw [hlast, bound, List.take_of_length_le (by simp)]

/-- One more template leaves the shares before it as they are. -/
theorem Holds.add (h : Holds es m) (offer : Offer) :
    Holds (es ++ [offer]) (m.add offer.probability offer.template) := by
  have hbefore : ∀ k ≤ es.length, bound (es ++ [offer]) k = bound es k := by
    intro k hk
    rw [bound, bound, List.map_append, List.take_append_of_le_length (by simpa using hk)]
  have hlast : bound (es ++ [offer]) (es.length + 1) = m.total + offer.probability := by
    rw [@bound_succ offer _ _ (by simp), hbefore _ (Nat.le_refl _), h.total, bound,
      List.take_of_length_le (by simp)]
  constructor
  · rw [Mixture.add, List.map_append, h.templates]
    simp
  · rw [Mixture.add, h.offsets, List.length_append, List.length_singleton, List.range_succ,
      List.map_append, List.map_singleton, hlast]
    have hends : ∀ k ∈ List.range es.length, bound es (k + 1) = bound (es ++ [offer]) (k + 1) :=
      fun k hk => (hbefore _ (List.mem_range.1 hk)).symm
    rw [List.map_congr_left hends]

/-- When a template is drawn, it remains what was registered. -/
theorem Holds.drawn (h : Holds es m) {t : Template} (ht : m.templates[i]? = some t) :
    Holds es { m with templates := m.templates.set i t.advance } := by
  obtain ⟨hi, rfl⟩ := List.getElem?_eq_some_iff.1 ht
  refine ⟨?_, h.offsets⟩
  have hi' : i < (m.templates.map Template.fresh).length := by simpa
  have hsame : m.templates[i].advance.fresh = (m.templates.map Template.fresh)[i] := by
    rw [List.getElem_map]
    rfl
  rw [List.map_set, hsame, List.set_getElem_self, h.templates]

/-- A task that is drawn is what was registered, with one of its sizes. -/
theorem Holds.sample_eq (h : Holds es m) {t : Template} (ht : m.templates[i]? = some t)
    (hoffer : es[i]? = some offer) :
    t.sample = { offer.template.task with geometry := offer.template.sizes t.drawn } := by
  have hfresh : t.fresh = offer.template.fresh := by
    have hat := congrArg (fun ts => ts[i]?) h.templates
    simpa [ht, hoffer] using hat
  have htask := congrArg Template.task hfresh
  have hsizes := congrArg Template.sizes hfresh
  simp only [Template.fresh] at htask hsizes
  rw [Template.sample, htask, hsizes]

/-! ## What a draw takes -/

/-- The template that is picked is the first whose share ends above the draw, or it is the last
where there is none. -/
theorem Holds.pick (h : Holds es m) (hes : es ≠ []) (draw : Float32) :
    m.pick draw < es.length ∧
      ((Scalar.less draw (bound es (m.pick draw + 1)) = true ∧
          ∀ k < m.pick draw, Scalar.less draw (bound es (k + 1)) = false) ∨
        m.pick draw + 1 = es.length ∧
          ∀ k < es.length, Scalar.less draw (bound es (k + 1)) = false) := by
  have hlength := h.length_offsets
  have hpos : 0 < es.length := List.length_pos_iff.2 hes
  unfold Mixture.pick
  cases hfind : m.offsets.findIdx? (fun offset => Scalar.less draw offset) with
  | none =>
      rw [Option.getD_none]
      refine ⟨by omega, .inr ⟨by omega, fun k hk => ?_⟩⟩
      have hk' : k < m.offsets.length := by omega
      have hnone := List.findIdx?_eq_none_iff.1 hfind m.offsets[k] (List.getElem_mem hk')
      rwa [h.getElem_offsets hk'] at hnone
  | some i =>
      obtain ⟨hi, hbelow, hfirst⟩ := List.findIdx?_eq_some_iff_getElem.1 hfind
      rw [h.getElem_offsets] at hbelow
      refine ⟨by simpa [hlength] using hi, .inl ⟨hbelow, fun k hk => ?_⟩⟩
      have hbefore := hfirst k hk
      rw [h.getElem_offsets] at hbefore
      exact Bool.eq_false_iff.2 hbefore

/-- A share that is the first to end above the draw has a probability above zero. -/
theorem less_of_picked {draw : Float32} (hdraw : Scalar.less draw Scalar.zero = false)
    (hoffer : es[i]? = some offer) (hend : Scalar.less draw (bound es (i + 1)) = true)
    (hfirst : ∀ k < i, Scalar.less draw (bound es (k + 1)) = false) :
    Scalar.less Scalar.zero offer.probability = true := by
  have hbefore : Scalar.less draw (bound es i) = false := by
    cases i with
    | zero => exact hdraw
    | succ k => exact hfirst k (Nat.lt_succ_self k)
  by_contra hnot
  rw [bound_succ hoffer] at hend
  rw [Single.less_of_less_add hdraw (Bool.eq_false_iff.2 hnot) hend] at hbefore
  cases hbefore

/-- The template that is picked has a probability above zero, unless the last one has not and
the draw is below no sum of the first probabilities. -/
theorem Holds.chance (h : Holds es m) {draw : Float32}
    (hdraw : Scalar.less draw Scalar.zero = false) (hoffer : es[m.pick draw]? = some offer) :
    Scalar.less Scalar.zero offer.probability = false ↔
      (∃ last, es.getLast? = some last ∧ Scalar.less Scalar.zero last.probability = false) ∧
        ∀ k, Scalar.less draw (bound es k) = false := by
  have hes : es ≠ [] := by
    rintro rfl
    cases hoffer
  obtain ⟨-, ⟨hend, hfirst⟩ | ⟨hlast, hnone⟩⟩ := h.pick hes draw
  · have hpositive := less_of_picked hdraw hoffer hend hfirst
    refine iff_of_false (by simp [hpositive]) fun hboth => ?_
    rw [hboth.2] at hend
    cases hend
  · have hoffer' : es.getLast? = some offer := by
      rw [List.getLast?_eq_getElem?, ← hlast]
      exact hoffer
    have hall : ∀ k, Scalar.less draw (bound es k) = false := by
      intro k
      rcases Nat.lt_or_ge k (es.length + 1) with hk | hk
      · cases k with
        | zero => exact hdraw
        | succ k => exact hnone k (by omega)
      · have hsame : bound es k = bound es es.length := by
          rw [bound, bound, List.take_of_length_le (by simp; omega),
            List.take_of_length_le (by simp)]
        rw [hsame, ← hlast]
        exact hnone _ (by omega)
    simp [hoffer', hall]

/-- A draw takes the template that is picked, if something is registered and the sum is not
found to be off. Otherwise it is refused and moves nothing. -/
theorem Holds.next (h : Holds es m) (s : Source Float32) :
    if es ≠ [] ∧ isOff (Scalar.sum (es.map Offer.probability)) = false then
      m.Yields s (m.pick s.draw)
    else ∃ r, m.next s = (.error r, m, s) := by
  have hempty : m.offsets.isEmpty = true ↔ es = [] := by
    rw [List.isEmpty_iff_length_eq_zero, h.length_offsets, List.length_eq_zero_iff]
  split
  · rename_i hready
    obtain ⟨hes, hsum⟩ := hready
    have hindex : m.pick s.draw < m.templates.length := by
      have hlength := congrArg List.length h.templates
      rw [List.length_map, List.length_map] at hlength
      rw [hlength]
      exact (h.pick hes s.draw).1
    have htemplate := List.getElem?_eq_getElem hindex
    refine ⟨_, htemplate, ?_⟩
    rw [Mixture.next, if_neg (mt hempty.1 hes), h.total, if_neg (by rw [hsum]; decide)]
    simp only [htemplate]
  · rename_i hnot
    by_cases hes : es = []
    · exact ⟨_, by rw [Mixture.next, if_pos (hempty.2 hes)]⟩
    · have hsum : isOff (Scalar.sum (es.map Offer.probability)) = true := by
        simpa [hes] using hnot
      exact ⟨_, by rw [Mixture.next, if_neg (mt hempty.1 hes), h.total, if_pos hsum]⟩

/-! ## What some deeds do -/

theorem offers_concat (deeds : List Deed) (deed : Deed) :
    offers (deeds ++ [deed]) = offers deeds ++ offers [deed] := by
  rw [offers, List.filterMap_append]
  rfl

/-- The mixture holds what was registered, whatever was drawn in between. -/
theorem holds_after (deeds : List Deed) : Holds (offers deeds) (after deeds) := by
  induction deeds using List.reverseRecOn with
  | nil => exact ⟨rfl, rfl⟩
  | append_singleton deeds deed ih =>
      have hafter : after (deeds ++ [deed]) = (after deeds).does deed := by
        simp [after]
      rw [offers_concat, hafter]
      cases deed with
      | register offer => exact ih.add offer
      | draw source =>
          have hnone : offers [.draw source] = [] := rfl
          have hnext := ih.next source
          rw [hnone, List.append_nil, does]
          split at hnext
          · obtain ⟨t, ht, hnext⟩ := hnext
            rw [hnext]
            exact ih.drawn ht
          · obtain ⟨r, hnext⟩ := hnext
            rw [hnext]
            exact ih

/-- A template without a chance is drawn only if it is the last and no share ends above the
draw. -/
theorem chances (hdraw : Scalar.less s.draw Scalar.zero = false) : Chances deeds s := by
  have hholds := holds_after deeds
  have hnext := hholds.next s
  refine ⟨?_, ?_, ?_⟩
  · split at hnext
    · rename_i hready
      obtain ⟨t, -, hnext⟩ := hnext
      exact iff_of_true ⟨_, congrArg Prod.fst hnext⟩ hready
    · rename_i hnot
      obtain ⟨r, hnext⟩ := hnext
      refine iff_of_false ?_ hnot
      rintro ⟨task, htask⟩
      rw [hnext] at htask
      cases htask
  · intro task htask
    split at hnext
    · rename_i hready
      have hyields := hnext
      obtain ⟨t, ht, hnext⟩ := hnext
      obtain ⟨hindex, -⟩ := hholds.pick hready.1 s.draw
      have hoffer := List.getElem?_eq_getElem hindex
      rw [hnext] at htask
      obtain rfl : t.sample = task := Except.ok.inj htask
      exact ⟨_, _, hyields, hoffer, t.drawn, hholds.sample_eq ht hoffer⟩
    · obtain ⟨r, hnext⟩ := hnext
      rw [hnext] at htask
      cases htask
  · intro i offer hyields hoffer
    split at hnext
    · obtain rfl : i = (after deeds).pick s.draw := hyields.eq hnext
      exact hholds.chance hdraw hoffer
    · obtain ⟨r, hnext⟩ := hnext
      obtain ⟨t, -, hyields⟩ := hyields
      rw [hnext] at hyields
      cases hyields

end

/-- A template that launches a kernel on lines of sixteen. -/
def lines (kernel : String) : Template := { task := { kernel }, sizes := fun _ => .line 16 }

/-- The first of three templates has no chance, and a task is drawn before the last is there. -/
def quarterAndRest : List Deed :=
  [.register ⟨0.0, lines "never"⟩,
    .register ⟨0.25, lines "quarter"⟩,
    .draw (.ofWords fun _ => 0x80000000),
    .register ⟨0.75, lines "rest"⟩]

theorem chances_quarter_and_rest :
    Scalar.less (Source.ofWords fun _ => 0).draw (Scalar.zero : Float32) = false ∧
    Chances quarterAndRest (.ofWords fun _ => 0) ∧
    ((after quarterAndRest).next (.ofWords fun _ => 0)).1.toOption.map Task.kernel =
      some "quarter" :=
  ⟨by decide +kernel, chances (by decide +kernel), by decide +kernel⟩

/-- The sum is within the tolerance, and the last template has no chance. -/
def almostAll : List Deed :=
  [.register ⟨0.99995, lines "almost"⟩, .register ⟨0.0, lines "never"⟩]

/-- The largest draw below one. -/
def largest : Source Float32 := .ofWords fun _ => 0xFFFFFFFF

/-- A template with probability zero is drawn. -/
theorem drawn_without_chance :
    Scalar.atMost Scalar.zero largest.draw = true ∧ Scalar.less largest.draw Scalar.one = true ∧
    (offers almostAll).map (fun offer =>
        (offer.template.task.kernel, Scalar.less Scalar.zero offer.probability)) =
      [("almost", true), ("never", false)] ∧
    ((after almostAll).next largest).1.toOption.map Task.kernel = some "never" := by
  decide +kernel

end Mixture

end KernelDispatch
