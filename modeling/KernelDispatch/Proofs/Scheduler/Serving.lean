import KernelDispatch.Proofs.Board.Caching
import KernelDispatch.Proofs.Scheduler.Registration

/-!
# Configurations in a course

A registered configuration is asked for kernels by the workers, whenever one of them launches a
task, and by clients at any time in between. Nothing else that happens to a scheduler reaches
it, so it is what those who asked have made of it. They cannot tell what it remembers: all
answers are those of the image.

## Main definitions

* `Scheduler.Act` — a move of a course, or code of a client that asks for kernels.
* `Scheduler.Course.asked` — the code that has asked a configuration.
* `Scheduler.Course.Transparent` — what holds of a configuration that was just loaded.

## Main results

* `Scheduler.Course.get?_acts` — a configuration is what was made of it.
* `Scheduler.Course.transparent` — all answers are those of the image.
-/

namespace KernelDispatch

namespace Board

/-- The board on which code has asked a configuration for kernels. -/
def serve (b : Board) (name : String) (g : Generator) : Board :=
  match b.configurations.get? name with
  | none => b
  | some c =>
      { b with
        configurations :=
          b.configurations.insert name (g.run { configuration := c }).2.configuration }

variable {b : Board} {c : Configuration} {name : String}

theorem get?_serve (h : b.configurations.get? name = some c) (other : String) (g : Generator) :
    (b.serve other g).configurations.get? name = some
      (Inquiry.serve { configuration := c } (if other = name then [g] else [])).2.configuration := by
  unfold serve
  by_cases hname : other = name
  · subst hname
    simp only [h, NameMap.get?_insert_self, if_pos]
    rfl
  · rw [if_neg hname]
    split
    · exact h
    · rw [NameMap.get?_insert_of_ne _ _ (Ne.symm hname)]
      exact h

/-- A task is made into a kernel as its generator asks for it. -/
theorem materialize_snd (b : Board) (name : String) (t : Task) :
    (b.materialize name t).2 = b.serve name t.generator := by
  unfold materialize serve
  cases b.configurations.get? name with
  | none => rfl
  | some c =>
      dsimp only
      rw [t.materialize_eq_run { configuration := c }]

/-- Whether the device takes a launch or not, the configurations have been asked. -/
theorem configurations_launch (b : Board) (queue : Nat) (closing : Bool) (name : String)
    (t : Task) : (b.launch queue closing name t).2.configurations =
      (b.serve name t.generator).configurations := by
  rw [← materialize_snd]
  unfold launch
  split
  · rename_i hmade
    rw [hmade]
  · rename_i hmade
    rw [hmade]
    split
    · rfl
    · rename_i hsubmit
      exact (alike_of_submit hsubmit).2

end Board

namespace ExecutionQueue

/-- The code that asks a configuration in the worker's next step: that of the task in hand, if
the step launches it. -/
def asks (q : ExecutionQueue) (name : String) : List Generator :=
  if q.phase = .closed then []
  else
    match q.hand with
    | .taken task program => if program = name then [task.generator] else []
    | _ => []

variable {b b' : Board} {q q' : ExecutionQueue} {done : Option Task} {c : Configuration}
  {name : String}

theorem get?_of_step (h : b.configurations.get? name = some c)
    (hstep : q.step b = some (b', q', done)) :
    b'.configurations.get? name =
      some (Inquiry.serve { configuration := c } (q.asks name)).2.configuration := by
  unfold step at hstep
  unfold asks
  split at hstep
  · cases hstep
  · rename_i hopen
    rw [if_neg hopen]
    split at hstep
    · rename_i hhand
      rw [hhand]
      obtain ⟨next, -, heq⟩ := Option.map_eq_some_iff.1 hstep
      rw [← (Prod.mk.inj heq).1]
      exact h
    · rename_i task program hhand
      have hserve := Board.get?_serve h program task.generator
      rw [← Board.configurations_launch b q.deviceQueue q.shutdown.isSome] at hserve
      rw [hhand]
      split at hstep
      · rename_i hlaunch
        simp only [Option.some.injEq, Prod.mk.injEq] at hstep
        rwa [hlaunch, hstep.1] at hserve
      · rename_i hlaunch
        simp only [Option.some.injEq, Prod.mk.injEq] at hstep
        rwa [hlaunch, hstep.1] at hserve
    · rename_i hhand
      rw [hhand]
      split at hstep
      · cases hstep
      · split at hstep
        · simp only [Option.some.injEq, Prod.mk.injEq] at hstep
          exact hstep.1 ▸ h
        · simp only [Option.some.injEq, Prod.mk.injEq] at hstep
          exact hstep.1 ▸ h
    · rename_i hhand
      rw [hhand]
      simp only [Option.some.injEq, Prod.mk.injEq] at hstep
      exact hstep.1 ▸ h

/-- A worker that stands still has no task to launch. -/
theorem asks_of_step_eq_none (h : q.step b = none) (name : String) : q.asks name = [] := by
  unfold asks
  split
  · rfl
  · rename_i hopen
    split
    · rename_i hhand
      simp only [step, if_neg hopen, hhand] at h
      split at h <;> cases h
    · rfl

end ExecutionQueue

namespace Scheduler

/-- What happens while clients hold configurations. -/
inductive Act where
  /-- Clients, workers and the device move as in any course. -/
  | plays (m : Move)
  /-- Code of a client asks a registered configuration for kernels. -/
  | asks (name : String) (g : Generator)

/-- The code that asks a configuration in an act. -/
def Act.asked (c : Course) (name : String) : Act → List Generator
  | .plays (.work kernel) =>
      match c.scheduler.queues.get? kernel with
      | none => []
      | some queue => queue.asks name
  | .plays _ => []
  | .asks other g => if other = name then [g] else []

namespace Course

/-- The course after an act. -/
def act (c : Course) : Act → Course
  | .plays m => c.play m
  | .asks name g =>
      { c with scheduler := { c.scheduler with board := c.scheduler.board.serve name g } }

/-- The course after these acts. -/
def acts (c : Course) (as : List Act) : Course := as.foldl act c

/-- The code that asks a configuration in these acts, in its order. -/
def asked (c : Course) (name : String) : List Act → List Generator
  | [] => []
  | a :: rest => a.asked c name ++ asked (c.act a) name rest

section

variable {c : Course} {name : String} {configuration : Configuration}

theorem get?_work (h : c.scheduler.board.configurations.get? name = some configuration)
    (kernel : String) : (c.play (.work kernel)).scheduler.board.configurations.get? name =
      some (Inquiry.serve { configuration }
        ((Act.plays (.work kernel)).asked c name)).2.configuration := by
  cases hqueue : c.scheduler.queues.get? kernel with
  | none =>
      simp only [Act.asked, play, work, hqueue]
      exact h
  | some queue =>
      simp only [Act.asked, hqueue]
      cases hstep : queue.step c.scheduler.board with
      | none =>
          simp only [ExecutionQueue.asks_of_step_eq_none hstep, play, work, hqueue, hstep]
          exact h
      | some result =>
          rw [play_work hqueue hstep]
          exact ExecutionQueue.get?_of_step h hstep

/-- A name that is taken is not registered anew. -/
theorem get?_register (h : c.scheduler.board.configurations.get? name = some configuration)
    {p : Program} (hnew : c.scheduler.isLoaded p.name = false) :
    (c.scheduler.counted.register (ofProgram p)).board.configurations.get? name =
      some configuration := by
  have hne : name ≠ p.name := by
    rintro rfl
    rw [isLoaded_eq] at hnew
    exact Bool.noConfusion (hnew.symm.trans (Option.isSome_iff_exists.2 ⟨configuration, h⟩))
  exact (NameMap.get?_insert_of_ne _ _ hne).trans h

theorem get?_act (h : c.scheduler.board.configurations.get? name = some configuration) (a : Act) :
    (c.act a).scheduler.board.configurations.get? name =
      some (Inquiry.serve { configuration } (a.asked c name)).2.configuration := by
  cases a with
  | asks other g => exact Board.get?_serve h other g
  | plays m =>
      cases m with
      | addConfiguration other =>
          have hadds := adds_addConfiguration c.scheduler other
          show (c.scheduler.addConfiguration other).2.board.configurations.get? name = _
          generalize c.scheduler.addConfiguration other = answer at hadds
          cases hadds with
          | loaded | unread | faulty => exact h
          | registers hnew himage hload hname => exact get?_register h (hname ▸ hnew)
      | insertConfiguration other image =>
          have hinserts := inserts_insertConfiguration c.scheduler other image
          show (c.scheduler.insertConfiguration other image).2.board.configurations.get? name = _
          generalize c.scheduler.insertConfiguration other image = answer at hinserts
          cases hinserts with
          | faulty | earlier => exact h
          | registers hload hname hnew =>
              refine get?_register h ?_
              rw [hname, isLoaded_eq, hnew, Option.isSome_none]
      | setConfiguration other =>
          show (c.play (.setConfiguration other)).scheduler.board.configurations.get? name = _
          rw [(setConfiguration_play c other).1]
          exact h
      | work kernel => exact get?_work h kernel
      | _ =>
          refine Eq.trans (congrArg (fun kept => kept.get? name)
            (sameConfigurations_play c ?_ ?_ ?_ ?_).configurations) h <;> simp

/-- A configuration that is registered stays so, and is what was made of it. -/
theorem get?_acts (h : c.scheduler.board.configurations.get? name = some configuration)
    (as : List Act) : (c.acts as).scheduler.board.configurations.get? name =
      some (Inquiry.serve { configuration } (c.asked name as)).2.configuration := by
  induction as generalizing c configuration with
  | nil => exact h
  | cons a rest ih =>
      have hrest := ih (get?_act h a)
      rw [asked, Inquiry.configuration_serve_append]
      exact hrest

end

/-- What holds of a configuration in which nothing is remembered yet. -/
structure Transparent (name : String) (configuration : Configuration) : Prop where
  /-- Code that asks it cannot tell what it remembers, whatever code has asked before. -/
  unseen : ∀ generators, Inquiry.Unseen configuration.program generators
    (Inquiry.serve { configuration } generators)
  /-- Once it is registered, it is asked by the workers that launch tasks and by the code of
  clients, and nothing else reaches it. -/
  served : ∀ c : Course, c.scheduler.board.configurations.get? name = some configuration →
    ∀ as, (c.acts as).scheduler.board.configurations.get? name =
      some (Inquiry.serve { configuration } (c.asked name as)).2.configuration

/-- What a configuration remembers of its image is not seen. -/
theorem transparent {name : String} {image : ByteArray} {configuration : Configuration}
    (h : Configuration.ofImage name image = .ok configuration) : Transparent name configuration :=
  ⟨Inquiry.unseen h, fun _ hregistered as => get?_acts hregistered as⟩

theorem transparent_of_twice : ∃ configuration,
    Configuration.ofImage "p" (Image.encode ["a", "b", "a"]) = .ok configuration ∧
      Transparent "p" configuration :=
  have h : Configuration.ofImage "p" (Image.encode ["a", "b", "a"]) =
    .ok { name := "p", program := ⟨"p", ["a", "b", "a"]⟩ } := rfl
  ⟨_, h, transparent h⟩

end Course

end Scheduler

end KernelDispatch
