import KernelDispatch.Proofs.Scheduler.Agreement

/-!
# Registration

The first configuration that is loaded under a name keeps the name for ever, and the first
of all is current until another one is made current. Which programs a course has brought
can be told from its moves alone: a call to add a configuration brings the program of the
image that is kept for the name then, one to insert a configuration brings the program of
the image it is given, and an image that is missing or faulty brings nothing. What is
registered under a name is the first program brought under it, and what is current is the
target of the last successful switch, or else the first program brought at all.

Two ways lead to a registration, and they treat a name that is taken differently: one does
not look at the image at all, and the other loads it and then keeps the earlier program. A
call that fails changes nothing, of the books, the queues, the device or the rest.

## Main definitions

* `Course.brought` — the programs that the moves of a course have brought.
* `Course.switched` — the configurations that they have made current.

## Main results

* `Course.programs_run`, `Course.current_run` — what is registered, and what is current.
* `Adds`, `Inserts` — what the two ways to register answer and leave.
* `Course.registry` — what follows for every course.
-/

namespace KernelDispatch

/-- The first program of a name. -/
def named? (programs : List Program) (name : String) : Option Program :=
  programs.find? fun p => p.name == name

theorem named?_append (programs programs' : List Program) (name : String) :
    named? (programs ++ programs') name = (named? programs name).or (named? programs' name) :=
  List.find?_append

theorem named?_singleton (p : Program) (name : String) :
    named? [p] name = if name = p.name then some p else none := by
  by_cases h : name = p.name
  · simp [named?, h]
  · have hne : (p.name == name) = false := by simpa using Ne.symm h
    simp [named?, h, hne]

/-- A program has the name that it is loaded under, and the error of an image that cannot be
loaded tells what is wrong with it. -/
theorem Program.load_cases (name : String) (image : ByteArray) :
    (∃ p, Program.load name image = .ok p ∧ p.name = name) ∨
      ∃ fault, Image.decode image = .error fault ∧
        Program.load name image = .error (.configuration (fault.detail name)) := by
  unfold Program.load
  cases hdecode : Image.decode image with
  | ok entryPoints => exact .inl ⟨_, rfl, rfl⟩
  | error fault => exact .inr ⟨fault, rfl, rfl⟩

theorem Program.name_of_load {name : String} {image : ByteArray} {p : Program}
    (h : (Program.load name image).toOption = some p) : p.name = name := by
  rcases Program.load_cases name image with ⟨q, hload, hname⟩ | ⟨fault, -, hload⟩
  · rw [hload] at h
    obtain rfl : q = p := Option.some.inj h
    exact hname
  · simp [hload, Except.toOption] at h

namespace Scheduler

variable {s : Scheduler} {c : Course} {m : Move}

/-! ## What a move brings -/

/-- The program that a move brings: that of the image it loads. -/
def Move.brings (s : Scheduler) : Move → Option Program
  | .addConfiguration name => (s.imageOf name).bind fun image => (Program.load name image).toOption
  | .insertConfiguration name image => (Program.load name image).toOption
  | _ => none

/-- The configuration that a move makes current. -/
def Move.switches (c : Course) : Move → Option String
  | .setConfiguration name =>
      if c.serves then (c.scheduler.setConfiguration name).1.toOption.map fun _ => name else none
  | _ => none

namespace Course

/-- The programs that these moves bring, in the order in which they come. -/
def brought (c : Course) : List Move → List Program
  | [] => []
  | m :: moves => (m.brings c.scheduler).toList ++ brought (c.play m) moves

/-- The configurations that these moves make current, one after the other. -/
def switched (c : Course) : List Move → List String
  | [] => []
  | m :: moves => (m.switches c).toList ++ switched (c.play m) moves

end Course

/-! ## Calls, case by case -/

/-- The configuration of a program from which no kernel was made yet. -/
def ofProgram (p : Program) : Configuration := { name := p.name, program := p }

theorem ofImage_eq (name : String) (image : ByteArray) :
    Configuration.ofImage name image = (Program.load name image).map ofProgram := by
  unfold Configuration.ofImage
  rcases Program.load_cases name image with ⟨p, hload, rfl⟩ | ⟨fault, -, hload⟩
  · rw [hload]
    rfl
  · rw [hload]
    rfl

/-- What a call to add a configuration answers and leaves. -/
inductive Adds (s : Scheduler) (name : String) : Result Unit × Scheduler → Prop where
  | loaded (hloaded : s.isLoaded name = true) : Adds s name (.ok (), s)
  | unread (hnew : s.isLoaded name = false) (himage : s.imageOf name = none) :
      Adds s name (.error (.configuration s!"cannot read {s.settings.imagePath name}"), s)
  | faulty {image : ByteArray} {fault : Image.Fault} (hnew : s.isLoaded name = false)
      (himage : s.imageOf name = some image) (hdecode : Image.decode image = .error fault)
      (hload : Program.load name image = .error (.configuration (fault.detail name))) :
      Adds s name (.error (.configuration (fault.detail name)), s)
  | registers {image : ByteArray} {p : Program} (hnew : s.isLoaded name = false)
      (himage : s.imageOf name = some image) (hload : Program.load name image = .ok p)
      (hname : p.name = name) : Adds s name (.ok (), s.counted.register (ofProgram p))

theorem adds_addConfiguration (s : Scheduler) (name : String) :
    Adds s name (s.addConfiguration name) := by
  rw [addConfiguration_eq]
  split
  · rename_i hloaded
    exact .loaded hloaded
  · rename_i hnew
    replace hnew : s.isLoaded name = false := Bool.eq_false_iff.2 hnew
    cases himage : s.imageOf name with
    | none => exact .unread hnew himage
    | some image =>
        dsimp only
        rw [ofImage_eq]
        rcases Program.load_cases name image with ⟨p, hload, hname⟩ | ⟨fault, hdecode, hload⟩
        · rw [hload]
          exact .registers hnew himage hload hname
        · rw [hload]
          exact .faulty hnew himage hdecode hload

/-- Nothing is looked at when a configuration is added that is loaded. -/
theorem addConfiguration_of_loaded {name : String} (h : s.isLoaded name = true) :
    s.addConfiguration name = (.ok (), s) := by
  rw [addConfiguration_eq]
  exact if_pos h

/-- The scheduler with other files at hand. -/
def withFiles (s : Scheduler) (directory : Directory) : Scheduler :=
  { s with books := { s.books with directory } }

/-- What a call to insert a configuration answers and leaves. -/
inductive Inserts (s : Scheduler) (name : String) (image : ByteArray) :
    Result Configuration × Scheduler → Prop where
  | faulty {fault : Image.Fault} (hdecode : Image.decode image = .error fault)
      (hload : Program.load name image = .error (.configuration (fault.detail name))) :
      Inserts s name image (.error (.configuration (fault.detail name)), s)
  | earlier {p : Program} {c : Configuration} (hload : Program.load name image = .ok p)
      (hname : p.name = name) (hearlier : s.configuration? name = some c) :
      Inserts s name image (.ok c, s.counted)
  | registers {p : Program} (hload : Program.load name image = .ok p) (hname : p.name = name)
      (hnew : s.configuration? name = none) :
      Inserts s name image (.ok (ofProgram p), s.counted.register (ofProgram p))

theorem inserts_insertConfiguration (s : Scheduler) (name : String) (image : ByteArray) :
    Inserts s name image (s.insertConfiguration name image) := by
  rw [insertConfiguration_eq, ofImage_eq]
  rcases Program.load_cases name image with ⟨p, hload, hname⟩ | ⟨fault, hdecode, hload⟩
  · rw [hload]
    dsimp only [Except.map]
    cases hget : s.board.configurations.get? name with
    | none => exact .registers hload hname hget
    | some c => exact .earlier hload hname hget
  · rw [hload]
    exact .faulty hdecode hload

/-- Only a registered configuration can be made current, and an attempt that fails changes
nothing. -/
theorem setConfiguration_eq (s : Scheduler) (name : String) :
    s.setConfiguration name =
      if s.isLoaded name then
        (.ok (), { s with current := some name, queues := s.queues.map fun q => q.setProgram name })
      else (.error (.unknownConfiguration name), s) := rfl

/-! ## What is registered -/

theorem isLoaded_eq (s : Scheduler) (name : String) :
    s.isLoaded name = (s.configuration? name).isSome := rfl

theorem isSome_programs (s : Scheduler) (name : String) :
    (s.board.programs.get? name).isSome = s.isLoaded name := by
  rw [Board.get?_programs, Option.isSome_map]
  rfl

/-- A program registered under a free name is found there, and the others where they
were. -/
theorem programs_register {p : Program} (hnew : s.isLoaded p.name = false) (name : String) :
    (s.counted.register (ofProgram p)).board.programs.get? name =
      (s.board.programs.get? name).or (named? [p] name) := by
  have hget : (s.counted.register (ofProgram p)).board.programs.get? name =
      ((s.board.configurations.insert p.name (ofProgram p)).get? name).map
        Configuration.program := Board.get?_programs _ _
  rw [hget, named?_singleton, NameMap.get?_insert, Board.get?_programs]
  split
  · rename_i hname
    have hnone : s.board.configurations.get? name = none := by
      rw [hname]
      simpa [isLoaded, NameMap.contains] using hnew
    rw [hnone]
    rfl
  · simp

/-- A program brought under a name that is taken is not found. -/
theorem programs_taken {p : Program} (htaken : s.isLoaded p.name = true) (name : String) :
    s.board.programs.get? name = (s.board.programs.get? name).or (named? [p] name) := by
  rw [named?_singleton]
  split
  · rename_i hname
    obtain ⟨earlier, hearlier⟩ :=
      Option.isSome_iff_exists.1 ((isSome_programs s name).trans (hname ▸ htaken))
    rw [hearlier, Option.some_or]
  · rw [Option.or_none]

theorem name_of_brings_add {name : String} {p : Program}
    (h : (Move.addConfiguration name).brings s = some p) : p.name = name := by
  obtain ⟨image, -, hload⟩ := Option.bind_eq_some_iff.1 h
  exact Program.name_of_load hload

theorem programs_addConfiguration (s : Scheduler) (name other : String) :
    (s.addConfiguration name).2.board.programs.get? other =
      (s.board.programs.get? other).or
        (named? ((Move.addConfiguration name).brings s).toList other) := by
  have hadds := adds_addConfiguration s name
  generalize s.addConfiguration name = answer at hadds
  cases hadds with
  | loaded hloaded =>
      cases hbrings : (Move.addConfiguration name).brings s with
      | none => simp [named?]
      | some p => exact programs_taken (by rwa [name_of_brings_add hbrings]) other
  | unread hnew himage => simp [Move.brings, himage, named?]
  | faulty hnew himage hdecode hload =>
      simp [Move.brings, himage, hload, Except.toOption, named?]
  | @registers image p hnew himage hload hname =>
      have hbrings : (Move.addConfiguration name).brings s = some p := by
        simp [Move.brings, himage, hload, Except.toOption]
      rw [hbrings]
      exact programs_register (by rwa [hname]) other

theorem programs_insertConfiguration (s : Scheduler) (name : String) (image : ByteArray)
    (other : String) :
    (s.insertConfiguration name image).2.board.programs.get? other =
      (s.board.programs.get? other).or
        (named? ((Move.insertConfiguration name image).brings s).toList other) := by
  have hinserts := inserts_insertConfiguration s name image
  generalize s.insertConfiguration name image = answer at hinserts
  cases hinserts with
  | faulty hdecode hload => simp [Move.brings, hload, Except.toOption, named?]
  | @earlier p c hload hname hearlier =>
      have hbrings : (Move.insertConfiguration name image).brings s = some p := by
        simp [Move.brings, hload, Except.toOption]
      have htaken : s.isLoaded p.name = true := by
        rw [hname, isLoaded_eq, hearlier, Option.isSome_some]
      rw [hbrings]
      exact programs_taken htaken other
  | @registers p hload hname hnew =>
      have hbrings : (Move.insertConfiguration name image).brings s = some p := by
        simp [Move.brings, hload, Except.toOption]
      have hfree : s.isLoaded p.name = false := by
        rw [hname, isLoaded_eq, hnew, Option.isSome_none]
      rw [hbrings]
      exact programs_register hfree other

/-! ## What is current -/

theorem current_register (s : Scheduler) (p : Program) :
    (s.counted.register (ofProgram p)).current = s.current.or (some p.name) := by
  show some (s.current.getD p.name) = _
  cases s.current <;> rfl

/-- What is current stays so when a name that is taken is registered anew. -/
theorem current_taken (hs : Registered s) {name : String} (htaken : s.isLoaded name = true)
    (other : Option String) : s.current = s.current.or other := by
  obtain ⟨before, hbefore⟩ := Option.isSome_iff_exists.1 (hs.current name htaken)
  rw [hbefore, Option.some_or]

theorem current_addConfiguration (hs : Registered s) (name : String) :
    (s.addConfiguration name).2.current =
      s.current.or (((Move.addConfiguration name).brings s).map Program.name) := by
  have hadds := adds_addConfiguration s name
  generalize s.addConfiguration name = answer at hadds
  cases hadds with
  | loaded hloaded => exact current_taken hs hloaded _
  | unread hnew himage => simp [Move.brings, himage]
  | faulty hnew himage hdecode hload => simp [Move.brings, himage, hload, Except.toOption]
  | @registers image p hnew himage hload hname =>
      simp [Move.brings, himage, hload, Except.toOption, current_register]

theorem current_insertConfiguration (hs : Registered s) (name : String) (image : ByteArray) :
    (s.insertConfiguration name image).2.current =
      s.current.or (((Move.insertConfiguration name image).brings s).map Program.name) := by
  have hinserts := inserts_insertConfiguration s name image
  generalize s.insertConfiguration name image = answer at hinserts
  cases hinserts with
  | faulty hdecode hload => simp [Move.brings, hload, Except.toOption]
  | @earlier p c hload hname hearlier =>
      have htaken : s.isLoaded name = true := by
        rw [isLoaded_eq, hearlier, Option.isSome_some]
      exact current_taken hs htaken _
  | registers hload hname hnew => simp [Move.brings, hload, Except.toOption, current_register]

/-! ## Other moves -/

/-- A scheduler in which nothing was registered or made current. -/
structure Unmoved (s s' : Scheduler) : Prop where
  programs : s'.board.programs = s.board.programs
  current : s'.current = s.current

/-- A scheduler with the same configurations, and the same one of them current. -/
structure SameConfigurations (s s' : Scheduler) : Prop where
  configurations : s'.board.configurations = s.board.configurations
  current : s'.current = s.current

theorem SameConfigurations.unmoved {s s' : Scheduler} (h : SameConfigurations s s') :
    Unmoved s s' :=
  ⟨congrArg (NameMap.map Configuration.program) h.configurations, h.current⟩

theorem sameConfigurations_collect (s : Scheduler) {visit : List String} (hvisit : visit.Nodup) :
    SameConfigurations s (s.collect (s.faultedAmong visit)).2 := by
  rw [(removal_collect s hvisit).rest]
  exact ⟨rfl, rfl⟩

theorem sameConfigurations_addTask (s : Scheduler) (t : Task) :
    SameConfigurations s (s.addTask t).2 := by
  rw [addTask_eq]
  split
  · exact ⟨rfl, rfl⟩
  · split
    · exact ⟨rfl, rfl⟩
    · rename_i hplace
      exact ⟨(place_cases hplace).2.1, rfl⟩

/-- Where nothing is registered or made current, only a worker's step reaches a
configuration. -/
theorem sameConfigurations_play (c : Course) (hadd : ∀ name, m ≠ .addConfiguration name)
    (hinsert : ∀ name image, m ≠ .insertConfiguration name image)
    (hset : ∀ name, m ≠ .setConfiguration name) (hwork : ∀ kernel, m ≠ .work kernel) :
    SameConfigurations c.scheduler (c.play m).scheduler := by
  cases m with
  | addConfiguration name => exact absurd rfl (hadd name)
  | insertConfiguration name image => exact absurd rfl (hinsert name image)
  | setConfiguration name => exact absurd rfl (hset name)
  | addTask task =>
      simp only [Course.play]
      split
      · rw [scheduler_offer]
        exact sameConfigurations_addTask _ task
      · exact ⟨rfl, rfl⟩
  | wait visit =>
      simp only [Course.play]
      split
      · rename_i hready
        exact sameConfigurations_collect _ (nodup_of_perm_kernels (isReady_iff.1 hready).2.2)
      · exact ⟨rfl, rfl⟩
  | finish visit =>
      simp only [Course.play]
      split
      · rename_i hready
        exact sameConfigurations_collect _ (nodup_of_perm_kernels (isReady_iff.1 hready).2.2)
      · exact ⟨rfl, rfl⟩
  | reset =>
      simp only [Course.play]
      split <;> exact ⟨rfl, rfl⟩
  | cancel kernel =>
      simp only [Course.play, updateQueue_eq]
      split <;> exact ⟨rfl, rfl⟩
  | clear =>
      rcases play_clear_cases c with hplay | ⟨finish, -, -, hplay⟩
      · rw [hplay]
        exact ⟨rfl, rfl⟩
      · rw [hplay]
        exact ⟨rfl, rfl⟩
  | work kernel => exact absurd rfl (hwork kernel)
  | hold on => exact ⟨rfl, rfl⟩
  | release kernel =>
      simp only [Course.play, updateQueue_eq]
      exact ⟨rfl, rfl⟩
  | failKernel entryPoint => exact ⟨rfl, rfl⟩
  | refuseQueues on => exact ⟨rfl, rfl⟩
  | resetMetrics => exact ⟨rfl, rfl⟩

/-- A worker's step leaves it at the programs, though it may have a kernel compiled. -/
theorem unmoved_work (c : Course) (kernel : String) :
    Unmoved c.scheduler (c.play (.work kernel)).scheduler := by
  rcases play_work_cases c kernel with hplay | ⟨q, next, board, done, hqueue, hstep⟩
  · rw [hplay]
    exact ⟨rfl, rfl⟩
  · rw [play_work hqueue hstep]
    exact ⟨(ExecutionQueue.alike_of_step hstep).programs, rfl⟩

/-- A move that brings no program and makes nothing current leaves it at what is registered
and current. -/
theorem unmoved_play (c : Course) (hadd : ∀ name, m ≠ .addConfiguration name)
    (hinsert : ∀ name image, m ≠ .insertConfiguration name image)
    (hset : ∀ name, m ≠ .setConfiguration name) :
    Unmoved c.scheduler (c.play m).scheduler := by
  by_cases hwork : ∃ kernel, m = .work kernel
  · obtain ⟨kernel, rfl⟩ := hwork
    exact unmoved_work c kernel
  · exact (sameConfigurations_play c hadd hinsert hset fun kernel h => hwork ⟨kernel, h⟩).unmoved

/-! ## A course -/

namespace Course

/-- A switch that is not possible, or fails, changes nothing; one that succeeds leaves it at
what is registered. -/
theorem setConfiguration_play (c : Course) (name : String) :
    (c.play (.setConfiguration name)).scheduler.board = c.scheduler.board ∧
      (c.play (.setConfiguration name)).scheduler.current =
        ((Move.setConfiguration name).switches c).or c.scheduler.current := by
  simp only [play, Move.switches]
  split
  · rw [setConfiguration_eq]
    split
    · exact ⟨rfl, rfl⟩
    · exact ⟨rfl, rfl⟩
  · exact ⟨rfl, rfl⟩

/-- What is registered after a move: what was, and else what the move brings. -/
theorem programs_play (c : Course) (m : Move) (name : String) :
    (c.play m).scheduler.board.programs.get? name =
      (c.scheduler.board.programs.get? name).or
        (named? (m.brings c.scheduler).toList name) := by
  cases m with
  | addConfiguration other => exact programs_addConfiguration c.scheduler other name
  | insertConfiguration other image =>
      exact programs_insertConfiguration c.scheduler other image name
  | setConfiguration other =>
      rw [(setConfiguration_play c other).1]
      simp [Move.brings, named?]
  | _ =>
      rw [(unmoved_play c (by simp) (by simp) (by simp)).programs]
      simp [Move.brings, named?]

/-- What is current after a move: the target of a switch, else what was current, else the
first program. -/
theorem current_play (hc : Registered c.scheduler) (m : Move) :
    (c.play m).scheduler.current =
      (m.switches c).or (c.scheduler.current.or ((m.brings c.scheduler).map Program.name)) := by
  cases m with
  | addConfiguration name => exact current_addConfiguration hc name
  | insertConfiguration name image => exact current_insertConfiguration hc name image
  | setConfiguration name =>
      rw [(setConfiguration_play c name).2]
      simp [Move.brings]
  | _ =>
      rw [(unmoved_play c (by simp) (by simp) (by simp)).current]
      simp [Move.brings, Move.switches]

/-- What is registered in the end is what was, and else the first program brought under a
name. -/
theorem programs_run (c : Course) (moves : List Move) (name : String) :
    (c.run moves).scheduler.board.programs.get? name =
      (c.scheduler.board.programs.get? name).or (named? (brought c moves) name) := by
  induction moves generalizing c with
  | nil => exact (Option.or_none).symm
  | cons m moves ih =>
      have hrest := ih (c.play m)
      rw [programs_play, Option.or_assoc, ← named?_append] at hrest
      exact hrest

/-- What is current in the end is the target of the last switch, or else what was current,
or else the first program. -/
theorem current_run (hc : Coherent c.scheduler) (hsound : Sound c) (moves : List Move) :
    (c.run moves).scheduler.current =
      (switched c moves).getLast?.or
        (c.scheduler.current.or ((brought c moves).head?.map Program.name)) := by
  induction moves generalizing c with
  | nil => simp [run, switched, brought]
  | cons m moves ih =>
      have hrest := ih (hc.play hsound m) (hsound.play m)
      rw [current_play hc.registered] at hrest
      refine hrest.trans ?_
      rw [switched, brought]
      cases m.switches c with
      | none =>
          simp only [Option.none_or, Option.toList_none, List.nil_append, Option.or_assoc]
          cases m.brings c.scheduler <;> rfl
      | some target =>
          simp only [Option.some_or, Option.toList_some, List.cons_append, List.nil_append,
            List.getLast?_cons]
          cases (switched (c.play m) moves).getLast? <;> rfl

/-- What holds of registrations at any moment, after the moves made so far. -/
structure Registry (made : Course) (moves : List Move) (c : Course) : Prop where
  /-- A name has the first program that was brought under it. -/
  first : ∀ name, c.scheduler.board.programs.get? name = named? (brought made moves) name
  configuration : ∀ {name configuration}, c.scheduler.configuration? name = some configuration →
    configuration.name = name ∧ named? (brought made moves) name = some configuration.program
  /-- And it keeps this program, whatever comes later. -/
  forever : ∀ {name p}, named? (brought made moves) name = some p → ∀ later,
    (c.run later).scheduler.board.programs.get? name = some p
  current : c.scheduler.current =
    (switched made moves).getLast?.or ((brought made moves).head?.map Program.name)
  adds : ∀ name, Adds c.scheduler name (c.scheduler.addConfiguration name)
  /-- To add what is loaded succeeds and changes nothing, with whatever files there are. -/
  adds_loaded : ∀ {name}, c.scheduler.isLoaded name = true → ∀ directory,
    (c.scheduler.withFiles directory).addConfiguration name =
      (.ok (), c.scheduler.withFiles directory)
  /-- To add fails for what is wrong with the image alone, and it changes nothing then. -/
  add_fails : ∀ {name e}, (c.scheduler.addConfiguration name).1 = .error e →
    (∃ detail, e = .configuration detail) ∧ c.play (.addConfiguration name) = c
  inserts : ∀ name image,
    Inserts c.scheduler name image (c.scheduler.insertConfiguration name image)
  /-- The answer to an insertion is what the name has from then on. -/
  inserted : ∀ {name image configuration},
    (c.scheduler.insertConfiguration name image).1 = .ok configuration →
      (c.play (.insertConfiguration name image)).scheduler.configuration? name =
        some configuration
  insert_fails : ∀ {name image e}, (c.scheduler.insertConfiguration name image).1 = .error e →
    (∃ detail, e = .configuration detail) ∧ c.play (.insertConfiguration name image) = c
  /-- To switch succeeds for what is loaded. -/
  switches : ∀ {name}, c.serves = true → c.scheduler.isLoaded name = true →
    (c.scheduler.setConfiguration name).1 = .ok () ∧
      (c.play (.setConfiguration name)).scheduler.current = some name
  /-- And it fails for what is not, and changes nothing then. -/
  switch_fails : ∀ {name e}, (c.scheduler.setConfiguration name).1 = .error e →
    e = .unknownConfiguration name ∧ c.scheduler.isLoaded name = false ∧
      c.play (.setConfiguration name) = c

theorem add_fails {name : String} {e : Error}
    (h : (c.scheduler.addConfiguration name).1 = .error e) :
    (∃ detail, e = .configuration detail) ∧ c.play (.addConfiguration name) = c := by
  have hadds := adds_addConfiguration c.scheduler name
  simp only [play]
  generalize c.scheduler.addConfiguration name = answer at hadds h
  cases hadds with
  | loaded => simp at h
  | unread => exact ⟨⟨_, (Except.error.inj h).symm⟩, rfl⟩
  | faulty => exact ⟨⟨_, (Except.error.inj h).symm⟩, rfl⟩
  | registers => simp at h

theorem insert_fails {name : String} {image : ByteArray} {e : Error}
    (h : (c.scheduler.insertConfiguration name image).1 = .error e) :
    (∃ detail, e = .configuration detail) ∧ c.play (.insertConfiguration name image) = c := by
  have hinserts := inserts_insertConfiguration c.scheduler name image
  simp only [play]
  generalize c.scheduler.insertConfiguration name image = answer at hinserts h
  cases hinserts with
  | faulty => exact ⟨⟨_, (Except.error.inj h).symm⟩, rfl⟩
  | earlier => simp at h
  | registers => simp at h

theorem inserted {name : String} {image : ByteArray} {configuration : Configuration}
    (h : (c.scheduler.insertConfiguration name image).1 = .ok configuration) :
    (c.play (.insertConfiguration name image)).scheduler.configuration? name =
      some configuration := by
  have hinserts := inserts_insertConfiguration c.scheduler name image
  simp only [play]
  generalize c.scheduler.insertConfiguration name image = answer at hinserts h
  cases hinserts with
  | faulty => simp at h
  | earlier hload hname hearlier =>
      rw [← Except.ok.inj h]
      exact hearlier
  | registers hload hname hnew =>
      rw [← Except.ok.inj h, ← hname]
      exact NameMap.get?_insert_self _ _ _

theorem switch_fails {name : String} {e : Error}
    (h : (c.scheduler.setConfiguration name).1 = .error e) :
    e = .unknownConfiguration name ∧ c.scheduler.isLoaded name = false ∧
      c.play (.setConfiguration name) = c := by
  rw [setConfiguration_eq] at h
  split at h
  · simp at h
  · rename_i hloaded
    refine ⟨(Except.error.inj h).symm, Bool.eq_false_iff.2 hloaded, ?_⟩
    simp only [play, setConfiguration_eq, if_neg hloaded, ite_self]

/-- In every course, whatever is registered in it and however often, the first program of a
name stays, and the last switch counts. -/
theorem registry (p : Blueprint) (device : Device) (directory : Directory) (moves : List Move) :
    Registry { scheduler := p.assemble device directory } moves
      (ofBlueprint p device directory moves) := by
  have hfirst : ∀ name, (ofBlueprint p device directory moves).scheduler.board.programs.get? name =
      named? (brought { scheduler := p.assemble device directory } moves) name :=
    programs_run { scheduler := p.assemble device directory } moves
  have hcoherent := Coherent.ofBlueprint p device directory moves
  refine
    { first := hfirst
      configuration := fun {name configuration} hconfiguration => ?_
      forever := fun {name program} hprogram later => ?_
      current :=
        current_run (.ofBlueprint p device directory []) (.ofBlueprint p device directory []) moves
      adds := adds_addConfiguration _
      adds_loaded := fun hloaded directory => ?_
      add_fails := add_fails
      inserts := inserts_insertConfiguration _
      inserted := inserted
      insert_fails := insert_fails
      switches := fun hserves hloaded => ?_
      switch_fails := switch_fails }
  · refine ⟨hcoherent.registered.faithful.named name configuration hconfiguration, ?_⟩
    rw [← hfirst, Board.get?_programs]
    exact congrArg (Option.map Configuration.program) hconfiguration
  · rw [programs_run, hfirst, hprogram, Option.some_or]
  · exact addConfiguration_of_loaded (s := Scheduler.withFiles _ _) hloaded
  · simp only [play, hserves, if_true, setConfiguration_eq, hloaded, and_self]

end Course

end Scheduler

end KernelDispatch
