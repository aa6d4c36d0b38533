import Atlas.Proofs.Docker.Instructions
import Mathlib.Data.List.Infix
import Mathlib.Data.List.Induction

/-!
# The record of a Dockerfile

The statements of a text are cut into blocks, each from the opening of a stage up to the next one
(`Divides`). A record holds what statements say if it has a stage for each block, with its steps, and
everything else wherever it stands (`Dockerfile.Records`). One more statement changes the record as it
says (`Dockerfile.Records.run`), so the record of a text holds what its statements say
(`Dockerfile.read_records`).
-/

set_option linter.unusedSectionVars false

namespace Atlas.Docker

/-! ## Statements -/

/-- The statements of a text. -/
def statements (text : String) : List Statement :=
  (logicalLines text.toList).filterMap Instruction.ofLine?

theorem startsBare_of_mem_statements {text : String} {s : Statement} (h : s ∈ statements text) :
    StartsBare s.2 := by
  obtain ⟨line, -, hs⟩ := List.mem_filterMap.1 h
  exact (Instruction.ofLine?_eq_some_iff.1 hs).startsBare

/-- The file after some statements. -/
def Dockerfile.runAll (f : Dockerfile) (ss : List Statement) : Dockerfile :=
  ss.foldl (fun f s => f.run s.1 s.2) f

theorem Dockerfile.read_eq (path text : String) :
    read path text = runAll { path } (statements text) := by
  rw [runAll, statements, List.foldl_filterMap, read]
  refine congrArg (fun step => List.foldl step _ _) (funext fun f => funext fun line => ?_)
  rw [apply]
  split <;> simp_all

/-! ## Blocks -/

/-- The opening of a stage, and the statements up to the next one. -/
structure Block where
  args : List Char
  body : List Statement

/-- The statements of a block. -/
def Block.statements (b : Block) : List Statement :=
  (.from, b.args) :: b.body

/-- The statements are those before the first stage, and then the blocks one after another. -/
structure Divides (head : List Statement) (blocks : List Block) (ss : List Statement) : Prop where
  eq : ss = head ++ blocks.flatMap Block.statements
  head : ∀ s ∈ head, s.1 ≠ .from
  bodies : ∀ b ∈ blocks, ∀ s ∈ b.body, s.1 ≠ .from

/-- The arguments of the statements with an instruction. -/
def argumentsFor (i : Instruction) (ss : List Statement) : List (List Char) :=
  (ss.filter (·.1 = i)).map Prod.snd

theorem argumentsFor_concat (i : Instruction) (ss : List Statement) (s : Statement) :
    argumentsFor i (ss ++ [s]) = argumentsFor i ss ++ if s.1 = i then [s.2] else [] := by
  rw [argumentsFor, List.filter_append, List.map_append, argumentsFor]
  congr 1
  split_ifs with h <;> simp [h]

/-- What the statements with an instruction give, with one more statement. -/
theorem flatMap_argumentsFor_concat {β : Type} (f : List Char → List β) (i : Instruction)
    (ss : List Statement) (s : Statement) : (argumentsFor i (ss ++ [s])).flatMap f =
      (argumentsFor i ss).flatMap f ++ if s.1 = i then f s.2 else [] := by
  rw [argumentsFor_concat, List.flatMap_append]
  split_ifs <;> simp

namespace Divides

variable {head : List Statement} {blocks : List Block} {ss : List Statement}

theorem nil : Divides [] [] [] :=
  ⟨rfl, List.forall_mem_nil _, List.forall_mem_nil _⟩

theorem concat_from (h : Divides head blocks ss) (args : List Char) :
    Divides head (blocks ++ [⟨args, []⟩]) (ss ++ [(.from, args)]) where
  eq := by
    rw [h.eq, List.flatMap_append, List.append_assoc]
    rfl
  head := h.head
  bodies := List.forall_mem_append.2
    ⟨h.bodies, List.forall_mem_singleton.2 (List.forall_mem_nil _)⟩

theorem concat_head (h : Divides head [] ss) {s : Statement} (hs : s.1 ≠ .from) :
    Divides (head ++ [s]) [] (ss ++ [s]) where
  eq := by simp [h.eq]
  head := List.forall_mem_append.2 ⟨h.head, List.forall_mem_singleton.2 hs⟩
  bodies := List.forall_mem_nil _

theorem concat_body {b : Block} (h : Divides head (blocks ++ [b]) ss) {s : Statement}
    (hs : s.1 ≠ .from) :
    Divides head (blocks ++ [{ b with body := b.body ++ [s] }]) (ss ++ [s]) where
  eq := by simp [h.eq, Block.statements]
  head := h.head
  bodies := by
    obtain ⟨hblocks, hb⟩ := List.forall_mem_append.1 h.bodies
    refine List.forall_mem_append.2 ⟨hblocks, List.forall_mem_singleton.2 ?_⟩
    exact List.forall_mem_append.2
      ⟨hb b List.mem_cons_self, List.forall_mem_singleton.2 hs⟩

/-- The blocks are what stands from the first opening on. -/
theorem dropWhile_eq (h : Divides head blocks ss) :
    ss.dropWhile (·.1 ≠ .from) = blocks.flatMap Block.statements := by
  rw [h.eq, List.dropWhile_append_of_pos fun s hs => decide_eq_true (h.head s hs)]
  cases blocks with
  | nil => rfl
  | cons b bs => rfl

/-- Each opening has its block. -/
theorem argumentsFor_from (h : Divides head blocks ss) :
    argumentsFor .from ss = blocks.map (·.args) := by
  have hblock : ∀ b ∈ blocks, b.statements.filter (·.1 = .from) = [(.from, b.args)] :=
    fun b hb => by
      rw [Block.statements, List.filter_cons_of_pos (by simp),
        List.filter_eq_nil_iff.2 fun s hs => by simpa using h.bodies b hb s hs]
  rw [argumentsFor, h.eq, List.filter_append,
    List.filter_eq_nil_iff.2 fun s hs => by simpa using h.head s hs, List.nil_append,
    List.filter_flatMap, List.flatMap_congr hblock, List.map_flatMap]
  exact (List.map_eq_flatMap ..).symm

end Divides

/-! ## Records -/

/-- The step that a statement adds to its stage. -/
def step? (s : Statement) : Option Step :=
  if s.1 ∈ [Instruction.run, .copy, .add] then
    some ⟨s.1.word, String.ofList (Chars.trim s.2)⟩
  else none

/-- The command that a statement sets. -/
def command? (s : Statement) : Option Command :=
  if s.1 ∈ [Instruction.cmd, .entrypoint] then some (Command.read s.1.word s.2) else none

/-- What is recorded of a stage. -/
def Stage.parts (s : Stage) : ℕ × Option (String × Option String) × List Step :=
  (s.index, some (s.base, s.name), s.steps)

/-- What a block says of its stage, which stands behind `n` others. -/
def Block.parts (n : ℕ) (b : Block) : ℕ × Option (String × Option String) × List Step :=
  (n, fromParts? b.args, b.body.filterMap step?)

/-- The record holds what the statements say : a stage for each block, with the steps of that block,
and everything else wherever it stands. -/
structure Dockerfile.Records (f : Dockerfile) (ss : List Statement) : Prop where
  stages : ∃ head blocks, Divides head blocks ss ∧
    f.stages.map Stage.parts = blocks.mapIdx Block.parts
  baseImage : f.baseImage = (f.stages.head?.map (·.base)).getD ""
  environment : f.environment = (argumentsFor .env ss).flatMap envVariables
  exposedPorts : f.exposedPorts =
    (argumentsFor .expose ss).flatMap fun args => (Chars.words args).map String.ofList
  volumes : f.volumes = (argumentsFor .volume ss).flatMap listOrWords
  commands : f.commands = ss.filterMap command?

namespace Dockerfile

theorem addToLast_concat (t : Step) (ss : List Stage) (s : Stage) :
    addToLast t (ss ++ [s]) = ss ++ [{ s with steps := s.steps ++ [t] }] := by
  induction ss with
  | nil => rfl
  | cons r ss ih =>
    have hcons : r :: ss ++ [s] = r :: (ss ++ [s]) := rfl
    cases hs : ss ++ [s] with
    | nil => simp at hs
    | cons q qs =>
      rw [hcons, hs, addToLast, ← hs, ih]
      · rfl
      · exact List.cons_ne_nil q qs

theorem map_base_addToLast (t : Step) (ss : List Stage) :
    (addToLast t ss).map (·.base) = ss.map (·.base) := by
  rcases List.eq_nil_or_concat ss with rfl | ⟨ss, s, rfl⟩
  · rfl
  · rw [List.concat_eq_append, addToLast_concat, List.map_append, List.map_append]
    rfl

/-! ### One statement -/

section Run

variable (f : Dockerfile) (i : Instruction) (args : List Char)

theorem path_run : (f.run i args).path = f.path := by
  cases i with
  | «from» => rw [run]; split <;> rfl
  | _ => rfl

theorem environment_run : (f.run i args).environment =
    f.environment ++ if i = .env then envVariables args else [] := by
  cases i with
  | «from» => rw [run]; split <;> simp [openStage]
  | _ => simp [run, addStep]

theorem exposedPorts_run : (f.run i args).exposedPorts =
    f.exposedPorts ++ if i = .expose then (Chars.words args).map String.ofList else [] := by
  cases i with
  | «from» => rw [run]; split <;> simp [openStage]
  | _ => simp [run, addStep]

theorem volumes_run : (f.run i args).volumes =
    f.volumes ++ if i = .volume then listOrWords args else [] := by
  cases i with
  | «from» => rw [run]; split <;> simp [openStage]
  | _ => simp [run, addStep]

theorem commands_run : (f.run i args).commands =
    f.commands ++ (command? (i, args)).toList := by
  cases i with
  | «from» => rw [run]; split <;> simp [openStage, command?]
  | _ => simp [run, addStep, command?]

/-- A statement that opens no stage may add a step to the last one. -/
theorem stages_run {i : Instruction} (hi : i ≠ .from) : (f.run i args).stages =
    (step? (i, args)).elim f.stages fun t => addToLast t f.stages := by
  cases i with
  | «from» => exact absurd rfl hi
  | _ => simp [run, addStep, step?]

theorem baseImage_run {i : Instruction} (hi : i ≠ .from) :
    (f.run i args).baseImage = f.baseImage := by
  cases i with
  | «from» => exact absurd rfl hi
  | _ => rfl

end Run

section Stages

variable {f : Dockerfile} {blocks : List Block}

theorem length_stages (h : f.stages.map Stage.parts = blocks.mapIdx Block.parts) :
    f.stages.length = blocks.length := by
  simpa using congrArg List.length h

/-- A stage is opened behind the others, with nothing in it. -/
theorem stages_openStage (h : f.stages.map Stage.parts = blocks.mapIdx Block.parts)
    {args : List Char} {base : String} {name : Option String}
    (hargs : fromParts? args = some (base, name)) :
    (f.openStage base name).stages.map Stage.parts =
      (blocks ++ [(⟨args, []⟩ : Block)]).mapIdx Block.parts := by
  rw [openStage, List.map_append, h, List.mapIdx_concat, length_stages h, List.map_singleton,
    Stage.parts, Block.parts, hargs]
  rfl

/-- What stands behind the opening of a stage belongs to that stage. -/
theorem stages_concat {b : Block}
    (h : f.stages.map Stage.parts = (blocks ++ [b]).mapIdx Block.parts) (s : Statement) :
    ((step? s).elim f.stages fun t => addToLast t f.stages).map Stage.parts =
      (blocks ++ [{ b with body := b.body ++ [s] }]).mapIdx Block.parts := by
  rw [List.mapIdx_concat] at h ⊢
  obtain ⟨before, last, hstages, hbefore, hlast⟩ := List.map_eq_append_iff.1 h
  obtain ⟨stage, rfl, hparts⟩ := List.map_eq_singleton_iff.1 hlast
  simp only [Stage.parts, Block.parts, Prod.mk.injEq] at hparts
  obtain ⟨hindex, hfrom, hsteps⟩ := hparts
  rw [hstages]
  cases hs : step? s with
  | none => simp [Stage.parts, Block.parts, hbefore, hindex, hfrom, hsteps, hs]
  | some t =>
    simp [addToLast_concat, Stage.parts, Block.parts, hbefore, hindex, hfrom, hsteps, hs]

end Stages

namespace Records

variable {f : Dockerfile} {ss : List Statement}

theorem empty (path : String) : Records { path } [] where
  stages := ⟨[], [], .nil, rfl⟩
  baseImage := rfl
  environment := rfl
  exposedPorts := rfl
  volumes := rfl
  commands := rfl

/-- The stages are numbered. -/
theorem indices (h : f.Records ss) : f.stages.map (·.index) = List.range f.stages.length := by
  obtain ⟨head, blocks, -, hstages⟩ := h.stages
  have hindex := congrArg (List.map Prod.fst) hstages
  rw [List.mapIdx_eq_zipIdx_map, List.map_map, List.map_map] at hindex
  rw [length_stages hstages, List.range_eq_range', ← List.zipIdx_map_snd 0 blocks]
  exact hindex

/-- There is a stage for each opening, with the image and the name given there. -/
theorem opened (h : f.Records ss) : f.stages.map (fun s => some (s.base, s.name)) =
    (argumentsFor .from ss).map fromParts? := by
  obtain ⟨head, blocks, hdivides, hstages⟩ := h.stages
  have hparts := congrArg (List.map fun p => p.2.1) hstages
  rw [List.mapIdx_eq_zipIdx_map, List.map_map, List.map_map] at hparts
  rw [hdivides.argumentsFor_from, ← List.zipIdx_map_fst 0 blocks, List.map_map, List.map_map]
  exact hparts

/-- The steps of all stages are those of the statements from the first opening on. -/
theorem steps (h : f.Records ss) : f.stages.flatMap (·.steps) =
    (ss.dropWhile (·.1 ≠ .from)).filterMap step? := by
  obtain ⟨head, blocks, hdivides, hstages⟩ := h.stages
  have hsteps := congrArg (List.flatMap fun p => p.2.2) hstages
  rw [List.mapIdx_eq_zipIdx_map, List.flatMap_map, List.flatMap_map] at hsteps
  have hblock : ∀ b : Block, b.statements.filterMap step? = b.body.filterMap step? :=
    fun b => rfl
  rw [hdivides.dropWhile_eq, List.filterMap_flatMap, List.flatMap_congr fun b _ => hblock b,
    ← List.zipIdx_map_fst 0 blocks, List.flatMap_map]
  exact hsteps

theorem exists_of_mem_stages (h : f.Records ss) {s : Stage} (hs : s ∈ f.stages) :
    ∃ args, (.from, args) ∈ ss ∧ fromParts? args = some (s.base, s.name) := by
  have hmem : some (s.base, s.name) ∈ (argumentsFor .from ss).map fromParts? :=
    h.opened ▸ List.mem_map_of_mem hs
  obtain ⟨args, hargs, hparts⟩ := List.mem_map.1 hmem
  obtain ⟨⟨i, args⟩, hfrom, rfl⟩ := List.mem_map.1 hargs
  obtain ⟨hmem, hi⟩ := List.mem_filter.1 hfrom
  obtain rfl := of_decide_eq_true hi
  exact ⟨args, hmem, hparts⟩

/-- A stage has an image, and no blank in its name. -/
theorem stage_spec (h : f.Records ss) (hss : ∀ s ∈ ss, StartsBare s.2) {s : Stage}
    (hs : s ∈ f.stages) :
    s.base ≠ "" ∧ ∀ n ∈ s.name, ∀ c ∈ n.toList, Chars.isBlank c = false := by
  obtain ⟨args, hmem, hparts⟩ := h.exists_of_mem_stages hs
  obtain ⟨base, name, hparts', hspec⟩ := exists_fromParts? (hss _ hmem)
  obtain ⟨rfl, rfl⟩ := Prod.mk.inj (Option.some.inj (hparts.symm.trans hparts'))
  exact hspec

/-- One more statement changes the record as it says. -/
theorem run (h : f.Records ss) {s : Statement} (hss : ∀ t ∈ ss ++ [s], StartsBare t.2) :
    (f.run s.1 s.2).Records (ss ++ [s]) := by
  obtain ⟨hold, hs⟩ := List.forall_mem_append.1 hss
  obtain ⟨i, args⟩ := s
  have hopen : i = .from → ∃ base name, fromParts? args = some (base, name) ∧
      f.run i args = f.openStage base name := by
    rintro rfl
    obtain ⟨base, name, hparts, -⟩ := exists_fromParts? (hs _ List.mem_cons_self)
    exact ⟨base, name, hparts, by rw [Dockerfile.run, hparts]⟩
  refine ⟨?stages, ?baseImage, ?environment, ?exposedPorts, ?volumes, ?commands⟩
  case stages =>
    obtain ⟨head, blocks, hdivides, hstages⟩ := h.stages
    by_cases hi : i = .from
    · obtain ⟨base, name, hparts, hrun⟩ := hopen hi
      exact ⟨head, _, hi ▸ hdivides.concat_from args, hrun ▸ stages_openStage hstages hparts⟩
    · rw [stages_run f args hi]
      rcases List.eq_nil_or_concat blocks with rfl | ⟨blocks, b, rfl⟩
      · -- Before the first stage a step belongs to none.
        have hnone : f.stages = [] := List.map_eq_nil_iff.1 hstages
        refine ⟨_, [], hdivides.concat_head hi, ?_⟩
        rw [hnone]
        cases step? (i, args) <;> rfl
      · rw [List.concat_eq_append] at hdivides hstages
        exact ⟨head, _, hdivides.concat_body hi, stages_concat hstages _⟩
  case baseImage =>
    by_cases hi : i = .from
    · obtain ⟨base, name, -, hrun⟩ := hopen hi
      rw [hrun, openStage]
      cases hstages : f.stages with
      | nil => simp [h.baseImage, hstages]
      | cons stage stages =>
        have hbase := (h.stage_spec hold (hstages ▸ List.mem_cons_self)).1
        simp [h.baseImage, hstages, hbase]
    · have hbases : (f.run i args).stages.map (·.base) = f.stages.map (·.base) := by
        rw [stages_run f args hi]
        cases step? (i, args) with
        | none => rfl
        | some t => exact map_base_addToLast t f.stages
      rw [baseImage_run f args hi, h.baseImage, ← List.head?_map, ← List.head?_map, hbases]
  case environment =>
    rw [environment_run, h.environment, flatMap_argumentsFor_concat]
  case exposedPorts =>
    rw [exposedPorts_run, h.exposedPorts, flatMap_argumentsFor_concat]
  case volumes =>
    rw [volumes_run, h.volumes, flatMap_argumentsFor_concat]
  case commands =>
    rw [commands_run, h.commands, List.filterMap_append]
    rfl

theorem runAll {path : String} (hss : ∀ s ∈ ss, StartsBare s.2) :
    (Dockerfile.runAll { path } ss).Records ss := by
  induction ss using List.reverseRecOn with
  | nil => exact .empty path
  | append_singleton ss s ih =>
    rw [Dockerfile.runAll, List.foldl_append]
    exact (ih (List.forall_mem_append.1 hss).1).run hss

end Records

theorem path_runAll (f : Dockerfile) (ss : List Statement) : (f.runAll ss).path = f.path := by
  induction ss generalizing f with
  | nil => rfl
  | cons s ss ih => exact (ih _).trans (f.path_run s.1 s.2)

theorem path_read (path text : String) : (read path text).path = path := by
  rw [read_eq, path_runAll]

theorem records_read (path text : String) : (read path text).Records (statements text) := by
  rw [read_eq]
  exact .runAll fun s => startsBare_of_mem_statements

/-- The record of a text holds what its statements say. It has a numbered stage for each opening,
and the steps of all stages together are those of the statements from the first opening on. Each
instruction reads the lines that give it arguments; no line gives some to two of them, so they may be
tried in any order. No statement with variables or ports is without an entry, and one with volumes is
only if it lists none. -/
theorem read_records (path text : String) :
    (read path text).path = path ∧
    (read path text).Records (statements text) ∧
    (read path text).stages.map (·.index) = List.range (read path text).stages.length ∧
    (read path text).stages.map (fun s => some (s.base, s.name)) =
      (argumentsFor .from (statements text)).map fromParts? ∧
    (read path text).stages.flatMap (·.steps) =
      ((statements text).dropWhile (·.1 ≠ .from)).filterMap step? ∧
    (∀ i line args, argumentsOf? (Instruction.word i).toList line = some args ↔
      i.Gives line args) ∧
    (∀ line i args, Instruction.ofLine? line = some (i, args) ↔ i.Gives line args) ∧
    (∀ line i args j args', Instruction.Gives i line args → Instruction.Gives j line args' →
      i = j ∧ args = args') ∧
    (∀ rules, rules.Perm Instruction.all → readBy rules path text = read path text) ∧
    ∀ s ∈ statements text, envVariables s.2 ≠ [] ∧ Chars.words s.2 ≠ [] ∧
      (listOrWords s.2 = [] → jsonWords? (Chars.trim s.2) = some []) := by
  have h := records_read path text
  refine ⟨path_read path text, h, h.indices, h.opened, h.steps,
    fun _ _ _ => Instruction.argumentsOf?_eq_some_iff,
    fun _ _ _ => Instruction.ofLine?_eq_some_iff, fun _ _ _ _ _ => Instruction.Gives.unique,
    fun rules hrules => ?_, fun s hs => ?_⟩
  · rw [← readBy_all]
    exact readBy_congr (fun i => hrules.mem_iff) path text
  · have hargs := startsBare_of_mem_statements hs
    exact ⟨envVariables_ne_nil s.2, words_ne_nil hargs, jsonWords?_of_listOrWords hargs⟩

end Dockerfile

end Atlas.Docker
