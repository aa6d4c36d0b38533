import Atlas.Analysis.Record
import Atlas.Proofs.Members

/-!
# Phases do not interfere

What a phase reads depends on the world and its own settings only (`Phase.extract`). A phase that
takes place adds what it reads under its own name and its own sources, and leaves what the others
have (`Gains`); one that fails is noted and does nothing else. No two phases share a source, so after
a run of several phases each has what it has after a run of its own (`phasesApart`).

The phase on databases reads one connection after another. Connections of one kind share a source,
under which the relations of their databases follow each other (`lookup_foldl_addDatabase`).
-/

set_option linter.unusedSectionVars false

namespace Atlas

/-! ## What a phase is about -/

namespace Phase

/-- What a phase finds, besides relations. -/
def Finding : Phase → Type
  | golang => Option Golang.Project
  | kubernetes => Option Kubernetes.Manifests
  | databases => List Sql.Database
  | docker => Option Docker.Project
  | laravel => Option Laravel.Project
  | nextjs => Option Nextjs.Project
  | swagger => Option Swagger.Spec

/-- The finding of a phase that found nothing. -/
def nothing : (p : Phase) → p.Finding
  | golang | kubernetes | docker | laravel | nextjs | swagger => none
  | databases => []

/-- The sources under which a phase puts its relations. -/
def sources : Phase → List String
  | databases => DatabaseType.all.map (·.code)
  | p => [p.name]

theorem notMem_sources {p q : Phase} (h : p ≠ q) : ∀ source ∈ p.sources, source ∉ q.sources := by
  cases p <;> cases q <;> first | exact absurd rfl h | decide

/-- The databases of the connections that can be read, in the order of the connections. -/
def databasesOf (w : World) (cs : List Connection) : List Sql.Database :=
  cs.filterMap fun c => (w.servers.database c).toOption

/-- The relations of some databases, one database after another, if there are any databases. -/
def relationsIn (dbs : List Sql.Database) : Option (List Relation) :=
  if dbs.isEmpty then none else some (dbs.flatMap (·.graph.relations))

/-- What a project is found to be, with the relations of its graph. -/
def single {α : Type} (graph : α → Graph) (x : α) :
    Option α × (String → Option (List Relation)) :=
  (some x, fun _ => some (graph x).relations)

/-- What a phase reads : its finding, and the relations under each of its sources. Each connection
to a database is read by itself, and those that cannot be read are no failure. -/
def extract (w : World) (s : Settings) :
    (p : Phase) → Result (p.Finding × (String → Option (List Relation)))
  | golang => (Golang.scan w.files s.golang.paths s.golang.ignores).map (single (·.graph))
  | kubernetes =>
    (Kubernetes.scan w.files s.kubernetes.paths s.kubernetes.ignores).map (single (·.graph))
  | databases =>
    .ok (databasesOf w s.databases.connections, fun source =>
      relationsIn (databasesOf w (s.databases.connections.filter (·.type = source))))
  | docker => (Docker.scan w.files s.docker.path).map (single (·.graph))
  | laravel => (Laravel.scan w.files s.laravel.path).map (single (·.graph))
  | nextjs => (Nextjs.scan w.files s.nextjs.path).map (single (·.graph))
  | swagger => (Swagger.load w.files s.swagger.file).map (single (·.graph))

/-- Whether a phase fails. -/
def fails (w : World) (s : Settings) (p : Phase) : Bool :=
  !(p.extract w s).isOk

end Phase

namespace Analysis

/-- What a phase found in an analysis. -/
def finding (a : Analysis) : (p : Phase) → p.Finding
  | .golang => a.golang
  | .kubernetes => a.kubernetes
  | .databases => a.databases
  | .docker => a.docker
  | .laravel => a.laravel
  | .nextjs => a.nextjs
  | .swagger => a.swagger

/-- A phase has this finding and these relations in an analysis. -/
structure Shows (a : Analysis) (p : Phase) (f : p.Finding)
    (relations : String → Option (List Relation)) : Prop where
  finding : a.finding p = f
  relations : ∀ source ∈ p.sources, a.relations.lookup source = relations source

/-- An analysis has the same of a phase as another one. -/
def Agrees (p : Phase) (a b : Analysis) : Prop :=
  a.Shows p (b.finding p) fun source => b.relations.lookup source

theorem Agrees.shows {p : Phase} {a b : Analysis} (h : Agrees p a b) {f : p.Finding}
    {relations : String → Option (List Relation)} (hb : b.Shows p f relations) :
    a.Shows p f relations :=
  ⟨h.finding.trans hb.finding, fun source hs =>
    (h.relations source hs).trans (hb.relations source hs)⟩

theorem Shows.agrees {p : Phase} {a b : Analysis} {f : p.Finding}
    {relations : String → Option (List Relation)} (ha : a.Shows p f relations)
    (hb : b.Shows p f relations) : Agrees p a b :=
  ⟨ha.finding.trans hb.finding.symm, fun source hs =>
    (ha.relations source hs).trans (hb.relations source hs).symm⟩

/-! ## One phase -/

/-- A phase adds what it reads to an analysis, and leaves all else as it is. -/
structure Gains (p : Phase) (f : p.Finding) (relations : String → Option (List Relation))
    (a b : Analysis) : Prop where
  settings : b.settings = a.settings
  failed : b.failed = a.failed
  findings : ∀ q, q ≠ p → b.finding q = a.finding q
  elsewhere : ∀ source, source ∉ p.sources → b.relations.lookup source = a.relations.lookup source
  own : a.Shows p p.nothing (fun _ => none) → b.Shows p f relations

theorem Gains.agrees {p q : Phase} {f : p.Finding} {relations : String → Option (List Relation)}
    {a b : Analysis} (h : Gains p f relations a b) (hq : q ≠ p) : Agrees q b a :=
  ⟨h.findings q hq, fun source hs => h.elsewhere source (Phase.notMem_sources hq source hs)⟩

theorem lookup_relate (a : Analysis) (source : String) (g : Graph) (k : String) :
    (a.relate source g).relations.lookup k =
      if k = source then some (a.relationsOf source ++ g.relations) else a.relations.lookup k :=
  Data.lookup_insertMember _ _ _ _

theorem finding_relate (a : Analysis) (source : String) (g : Graph) (p : Phase) :
    (a.relate source g).finding p = a.finding p := by
  cases p <;> rfl

/-- The analysis with another finding of a phase. -/
def put (a : Analysis) : (p : Phase) → p.Finding → Analysis
  | .golang, f => { a with golang := f }
  | .kubernetes, f => { a with kubernetes := f }
  | .databases, f => { a with databases := f }
  | .docker, f => { a with docker := f }
  | .laravel, f => { a with laravel := f }
  | .nextjs, f => { a with nextjs := f }
  | .swagger, f => { a with swagger := f }

theorem finding_put (a : Analysis) (p : Phase) (f : p.Finding) : (a.put p f).finding p = f := by
  cases p <;> rfl

theorem finding_put_of_ne (a : Analysis) {p q : Phase} (f : p.Finding) (h : q ≠ p) :
    (a.put p f).finding q = a.finding q := by
  cases p <;> cases q <;> first | rfl | exact absurd rfl h

theorem put_eq (a : Analysis) (p : Phase) (f : p.Finding) :
    (a.put p f).settings = a.settings ∧ (a.put p f).failed = a.failed ∧
      (a.put p f).relations = a.relations := by
  cases p <;> exact ⟨rfl, rfl, rfl⟩

/-- A phase with one source puts its finding in its place and records the relations. -/
theorem gains_relate {p : Phase} (hp : p.sources = [p.name]) (a : Analysis) (f : p.Finding)
    (g : Graph) :
    Gains p f (fun _ => some g.relations) a ((a.put p f).relate p.name g) where
  settings := (put_eq a p f).1
  failed := (put_eq a p f).2.1
  findings q hq := (finding_relate _ _ _ q).trans (finding_put_of_ne a f hq)
  elsewhere source hs := by
    rw [hp, List.mem_singleton] at hs
    rw [lookup_relate, if_neg hs, (put_eq a p f).2.2]
  own h := by
    refine ⟨(finding_relate _ _ _ p).trans (finding_put a p f), fun source hs => ?_⟩
    have hname : source = p.name := List.mem_singleton.1 (hp ▸ hs)
    have hnone : (a.put p f).relationsOf p.name = [] := by
      rw [relationsOf, (put_eq a p f).2.2, h.relations _ (hname ▸ hs), Option.getD_none]
    rw [lookup_relate, if_pos hname, hnone, List.nil_append]

/-! ## Databases -/

/-- What can be read is read under the word for its kind. -/
theorem databaseSource_of_read {w : World} {c : Connection} {db : Sql.Database}
    (h : w.servers.database c = .ok db) :
    databaseSource c = c.type ∧ c.type ∈ Phase.databases.sources := by
  have hcode : ∀ t, DatabaseType.ofCode? c.type = some t → t.code = c.type := fun t ht => by
    simpa using List.find?_some ht
  rw [Servers.database] at h
  rw [databaseSource]
  cases ht : DatabaseType.ofCode? c.type with
  | none =>
    rw [ht] at h
    cases h
  | some t =>
    rw [Option.map_some, Option.getD_some, hcode t ht]
    exact ⟨rfl, hcode t ht ▸ List.mem_map_of_mem (List.mem_of_find?_eq_some ht)⟩

/-- Connections to databases change nothing but the databases and the relations. -/
theorem foldl_addDatabase_eq (w : World) (cs : List Connection) (a : Analysis) :
    cs.foldl (addDatabase w) a =
      { a with
        databases := a.databases ++ Phase.databasesOf w cs
        relations := (cs.foldl (addDatabase w) a).relations } := by
  induction cs generalizing a with
  | nil => simp [Phase.databasesOf]
  | cons c cs ih =>
    rw [List.foldl_cons, ih]
    cases h : w.servers.database c with
    | error e => simp [addDatabase, h, Phase.databasesOf, Except.toOption]
    | ok db => simp [addDatabase, h, Phase.databasesOf, Except.toOption, relate]

/-- The relations of the databases of one kind follow those that were there. -/
theorem lookup_foldl_addDatabase (w : World) (cs : List Connection) (a : Analysis)
    (source : String) :
    (cs.foldl (addDatabase w) a).relations.lookup source =
      (Phase.relationsIn (Phase.databasesOf w (cs.filter (·.type = source)))).elim
        (a.relations.lookup source) fun rs => some (a.relationsOf source ++ rs) := by
  induction cs generalizing a with
  | nil => rfl
  | cons c cs ih =>
    rw [List.foldl_cons, ih]
    cases h : w.servers.database c with
    | error e =>
      have hread : Phase.databasesOf w ((c :: cs).filter (·.type = source)) =
          Phase.databasesOf w (cs.filter (·.type = source)) := by
        rw [List.filter_cons]
        split_ifs
        · simp [Phase.databasesOf, h, Except.toOption]
        · rfl
      simp [addDatabase, h, hread]
    | ok db =>
      have hlookup : (addDatabase w a c).relations.lookup source =
          if source = c.type then some (a.relationsOf source ++ db.graph.relations)
          else a.relations.lookup source := by
        simp only [addDatabase, h]
        rw [lookup_relate, (databaseSource_of_read h).1]
        exact if_ctx_congr Iff.rfl (fun hs => hs ▸ rfl) fun _ => rfl
      by_cases hs : source = c.type
      · have hread : Phase.databasesOf w ((c :: cs).filter (·.type = source)) =
            db :: Phase.databasesOf w (cs.filter (·.type = source)) := by
          simp [Phase.databasesOf, h, hs, Except.toOption]
        rw [if_pos hs] at hlookup
        rw [hread, relationsOf, hlookup]
        cases Phase.databasesOf w (cs.filter (·.type = source)) <;> simp [Phase.relationsIn]
      · have hread : (c :: cs).filter (·.type = source) = cs.filter (·.type = source) :=
          List.filter_cons_of_neg (by simpa using Ne.symm hs)
        rw [if_neg hs] at hlookup
        rw [hread, relationsOf, hlookup]
        rfl

/-- No database is read under a source of another phase. -/
theorem databasesOf_eq_nil {w : World} {source : String}
    (h : source ∉ Phase.databases.sources) (cs : List Connection) :
    Phase.databasesOf w (cs.filter (·.type = source)) = [] := by
  refine List.filterMap_eq_nil_iff.2 fun c hc => ?_
  have hs : c.type = source := by simpa using (List.mem_filter.1 hc).2
  cases hread : w.servers.database c with
  | error e => rfl
  | ok db => exact absurd (hs ▸ (databaseSource_of_read hread).2) h

theorem gains_databases (w : World) (a : Analysis) :
    Gains .databases (Phase.databasesOf w a.settings.databases.connections)
      (fun source => Phase.relationsIn
        (Phase.databasesOf w (a.settings.databases.connections.filter (·.type = source))))
      a (a.settings.databases.connections.foldl (addDatabase w) a) where
  settings := by rw [foldl_addDatabase_eq]
  failed := by rw [foldl_addDatabase_eq]
  findings q hq := by
    rw [foldl_addDatabase_eq]
    cases q <;> first | rfl | exact absurd rfl hq
  elsewhere source hs := by
    rw [lookup_foldl_addDatabase, databasesOf_eq_nil hs]
    rfl
  own h := by
    refine ⟨?_, fun source hs => ?_⟩
    · have hnone : a.databases = [] := h.finding
      rw [foldl_addDatabase_eq]
      simp only [finding]
      rw [hnone, List.nil_append]
    · rw [lookup_foldl_addDatabase, relationsOf, h.relations source hs]
      cases Phase.relationsIn _ <;> rfl

/-! ## Steps -/

/-- A phase fails with what it reads, and otherwise adds what it reads. -/
def Follows (w : World) (a : Analysis) (p : Phase) : Prop :=
  match p.extract w a.settings with
  | .error e => a.run w p = .error e
  | .ok (f, relations) => ∃ b, a.run w p = .ok b ∧ Gains p f relations a b

/-- A phase that scans for one project. -/
theorem follows_of_scan {w : World} {a : Analysis} {p : Phase} {α : Type} {scan : Result α}
    {f : α → p.Finding} {graph : α → Graph} (hp : p.sources = [p.name])
    (hextract : p.extract w a.settings =
      scan.map fun x => (f x, fun _ => some (graph x).relations))
    (hrun : a.run w p = scan.map fun x => (a.put p (f x)).relate p.name (graph x)) :
    Follows w a p := by
  rw [Follows, hextract, hrun]
  cases scan with
  | error e => rfl
  | ok x => exact ⟨_, rfl, gains_relate hp a (f x) (graph x)⟩

theorem follows (w : World) (a : Analysis) (p : Phase) : Follows w a p := by
  cases p with
  | databases => exact ⟨_, rfl, gains_databases w a⟩
  | golang => exact follows_of_scan rfl rfl rfl
  | kubernetes => exact follows_of_scan rfl rfl rfl
  | docker => exact follows_of_scan rfl rfl rfl
  | laravel => exact follows_of_scan rfl rfl rfl
  | nextjs => exact follows_of_scan rfl rfl rfl
  | swagger => exact follows_of_scan rfl rfl rfl

section Step

variable {w : World} {a : Analysis} {p : Phase}

/-- A phase that fails is noted and does nothing else. -/
theorem step_of_error {e : Error} (h : p.extract w a.settings = .error e) :
    a.step w p = { a with failed := a.failed ++ [p] } := by
  have hfollows := follows w a p
  rw [Follows, h] at hfollows
  rw [step, hfollows]

theorem step_of_ok {f : p.Finding} {relations : String → Option (List Relation)}
    (h : p.extract w a.settings = .ok (f, relations)) : Gains p f relations a (a.step w p) := by
  have hfollows := follows w a p
  rw [Follows, h] at hfollows
  obtain ⟨b, hrun, hb⟩ := hfollows
  rw [step, hrun]
  exact hb

theorem settings_step (w : World) (a : Analysis) (p : Phase) :
    (a.step w p).settings = a.settings := by
  cases h : p.extract w a.settings with
  | error e => rw [step_of_error h]
  | ok r => exact (step_of_ok h).settings

theorem failed_step (w : World) (a : Analysis) (p : Phase) :
    (a.step w p).failed = a.failed ++ [p].filter (·.fails w a.settings) := by
  rw [List.filter_singleton, Phase.fails]
  cases h : p.extract w a.settings with
  | error e => rw [step_of_error h]; rfl
  | ok r => rw [(step_of_ok h).failed]; exact (List.append_nil _).symm

theorem agrees_step {q : Phase} (hq : q ≠ p) : Agrees q (a.step w p) a := by
  cases h : p.extract w a.settings with
  | error e => rw [step_of_error h]; exact ⟨rfl, fun _ _ => rfl⟩
  | ok r => exact (step_of_ok h).agrees hq

end Step

/-! ## Runs -/

section Run

variable {w : World} {a : Analysis} {ps : List Phase} {p : Phase}

theorem failed_foldl_step (w : World) (a : Analysis) (ps : List Phase) :
    (ps.foldl (step w) a).failed = a.failed ++ ps.filter (·.fails w a.settings) := by
  induction ps generalizing a with
  | nil => exact (List.append_nil _).symm
  | cons p ps ih =>
    rw [List.foldl_cons, ih, settings_step, failed_step, List.append_assoc, ← List.filter_append,
      List.singleton_append]

theorem agrees_foldl_step (hp : p ∉ ps) : Agrees p (ps.foldl (step w) a) a := by
  induction ps generalizing a with
  | nil => exact ⟨rfl, fun _ _ => rfl⟩
  | cons q ps ih =>
    rw [List.mem_cons, not_or] at hp
    exact (ih hp.2).shows (agrees_step hp.1)

/-- What a phase reads is seen after a run of several phases, whatever the others do. -/
theorem shows_foldl_step (hps : ps.Nodup) (hp : p ∈ ps)
    (ha : a.Shows p p.nothing fun _ => none) {r : p.Finding × (String → Option (List Relation))}
    (hr : p.extract w a.settings = .ok r) : (ps.foldl (step w) a).Shows p r.1 r.2 := by
  induction ps generalizing a with
  | nil => cases hp
  | cons q ps ih =>
    obtain ⟨hq, hps⟩ := List.nodup_cons.1 hps
    rcases List.mem_cons.1 hp with rfl | hp
    · exact (agrees_foldl_step hq).shows ((step_of_ok hr).own ha)
    · have hne : p ≠ q := fun h => hq (h ▸ hp)
      exact ih hps hp ((agrees_step hne).shows ha) (by rw [settings_step, hr])

/-- A phase that fails is not seen, whatever the others do. -/
theorem shows_nothing_foldl_step (ha : a.Shows p p.nothing fun _ => none)
    (hp : p ∈ ps → p.fails w a.settings = true) :
    (ps.foldl (step w) a).Shows p p.nothing fun _ => none := by
  induction ps generalizing a with
  | nil => exact ha
  | cons q ps ih =>
    rw [List.foldl_cons]
    refine ih ?_ fun h => ?_
    · by_cases hq : p = q
      · subst hq
        have hfails := hp List.mem_cons_self
        rw [Phase.fails] at hfails
        cases hread : p.extract w a.settings with
        | error e =>
          rw [step_of_error hread]
          exact ⟨ha.finding, ha.relations⟩
        | ok r =>
          rw [hread] at hfails
          cases hfails
      · exact (agrees_step hq).shows ha
    · rw [settings_step]
      exact hp (List.mem_cons_of_mem _ h)

theorem lookup_foldl_step {source : String} (h : ∀ p ∈ ps, source ∉ p.sources) :
    (ps.foldl (step w) a).relations.lookup source = a.relations.lookup source := by
  induction ps generalizing a with
  | nil => rfl
  | cons q ps ih =>
    obtain ⟨hq, hps⟩ := List.forall_mem_cons.1 h
    rw [List.foldl_cons, ih hps]
    cases hread : q.extract w a.settings with
    | error e => rw [step_of_error hread]
    | ok r => exact (step_of_ok hread).elsewhere source hq

end Run

end Analysis

/-! ## Analyses -/

/-- The settings with one phase enabled and no other. -/
def Settings.only (s : Settings) (p : Phase) : Settings :=
  { s with
    golang := { s.golang with enabled := p == .golang }
    kubernetes := { s.kubernetes with enabled := p == .kubernetes }
    databases := { s.databases with enabled := p == .databases }
    docker := { s.docker with enabled := p == .docker }
    laravel := { s.laravel with enabled := p == .laravel }
    nextjs := { s.nextjs with enabled := p == .nextjs }
    swagger := { s.swagger with enabled := p == .swagger } }

/-- The settings without the connections to databases that cannot be read. -/
def Settings.readable (s : Settings) (w : World) : Settings :=
  { s with databases := { s.databases with
      connections := s.databases.connections.filter fun c => (w.servers.database c).isOk } }

theorem Settings.phases_only (s : Settings) (p : Phase) : (s.only p).phases = [p] := by
  cases p <;> rfl

theorem Settings.phases_readable (s : Settings) (w : World) :
    (s.readable w).phases = s.phases :=
  rfl

theorem Settings.nodup_phases (s : Settings) : s.phases.Nodup :=
  Phase.nodup_all.filter _

namespace Phase

theorem extract_only (w : World) (s : Settings) (p : Phase) :
    p.extract w (s.only p) = p.extract w s := by
  cases p <;> rfl

theorem databasesOf_filter (w : World) (cs : List Connection) :
    databasesOf w (cs.filter fun c => (w.servers.database c).isOk) = databasesOf w cs := by
  rw [databasesOf, databasesOf, List.filterMap_filter]
  refine List.filterMap_congr fun c _ => ?_
  cases w.servers.database c <;> rfl

/-- What can be read is read without the rest. -/
theorem extract_readable (w : World) (s : Settings) (p : Phase) :
    p.extract w (s.readable w) = p.extract w s := by
  cases p with
  | databases =>
    simp only [extract, Settings.readable, databasesOf_filter]
    simp only [List.filter_comm _ (fun c : Connection => (w.servers.database c).isOk)]
    simp only [databasesOf_filter]
  | _ => rfl

end Phase

open Analysis

/-- The phases of an analysis do not interfere. -/
structure PhasesApart (w : World) (s : Settings) : Prop where
  /-- A phase gives what it gives alone. -/
  alone : ∀ p ∈ s.phases, Agrees p (analyse w s) (analyse w (s.only p))
  /-- A phase that does not fail gives what it reads. -/
  reads : ∀ p ∈ s.phases, ∀ r, p.extract w s = .ok r → (analyse w s).Shows p r.1 r.2
  /-- A phase that fails finds nothing and has no relations. -/
  failing : ∀ p ∈ s.phases, p.fails w s = true → (analyse w s).Shows p p.nothing fun _ => none
  /-- The relations are those of the phases that take place. -/
  elsewhere : ∀ source, (∀ p ∈ s.phases, source ∉ p.sources) →
    (analyse w s).relations.lookup source = none
  /-- The phases that fail are noted in their order. -/
  failed : (analyse w s).failed = s.phases.filter (·.fails w s)
  /-- They stand in the record of the analysis, if there are any. -/
  noted : ∀ t, ((analyse w s).metadata t).get? "failed_phases" =
    if (analyse w s).failed.isEmpty then none
    else some (.texts ((analyse w s).failed.map (·.name)))
  /-- The phase on databases never fails. -/
  databases : .databases ∉ (analyse w s).failed
  /-- Databases come in the order of their connections, -/
  connections : .databases ∈ s.phases → (analyse w s).databases =
    s.databases.connections.filterMap fun c => (w.servers.database c).toOption
  /-- and so do their relations under each kind of database. -/
  kinds : .databases ∈ s.phases → ∀ kind : DatabaseType, (analyse w s).relationsOf kind.code =
    (s.databases.connections.filter (·.type = kind.code)).flatMap fun c =>
      ((w.servers.database c).toOption.map (·.graph.relations)).getD []
  /-- A connection that cannot be read changes nothing. -/
  unread : ∀ p, Agrees p (analyse w s) (analyse w (s.readable w))

section Analyse

variable {w : World} {s : Settings} {p : Phase}

theorem shows_nothing (s : Settings) (p : Phase) :
    ({ settings := s } : Analysis).Shows p p.nothing fun _ => none :=
  ⟨by cases p <;> rfl, fun _ _ => rfl⟩

theorem shows_analyse (hp : p ∈ s.phases) {r : p.Finding × (String → Option (List Relation))}
    (hr : p.extract w s = .ok r) : (analyse w s).Shows p r.1 r.2 :=
  shows_foldl_step s.nodup_phases hp (shows_nothing s p) hr

theorem shows_nothing_analyse (hp : p ∈ s.phases → p.fails w s = true) :
    (analyse w s).Shows p p.nothing fun _ => none :=
  shows_nothing_foldl_step (shows_nothing s p) hp

/-- Two analyses that read the same in a phase, if it takes place, have the same of it. -/
theorem agrees_analyse {s' : Settings} (hphases : p ∈ s.phases ↔ p ∈ s'.phases)
    (hread : p.extract w s = p.extract w s') : Agrees p (analyse w s) (analyse w s') := by
  by_cases hp : p ∈ s.phases
  · cases h : p.extract w s with
    | ok r => exact (shows_analyse hp h).agrees (shows_analyse (hphases.1 hp) (hread ▸ h))
    | error e =>
      have hfails : p.fails w s = true := by rw [Phase.fails, h]; rfl
      have hfails' : p.fails w s' = true := by rw [Phase.fails, ← hread, h]; rfl
      exact (shows_nothing_analyse fun _ => hfails).agrees (shows_nothing_analyse fun _ => hfails')
  · exact (shows_nothing_analyse fun h => absurd h hp).agrees
      (shows_nothing_analyse fun h => absurd (hphases.2 h) hp)

theorem failed_analyse (w : World) (s : Settings) :
    (analyse w s).failed = s.phases.filter (·.fails w s) :=
  failed_foldl_step w _ _

/-- The relations of some connections are those of each, one after another. -/
theorem getD_relationsIn (w : World) (cs : List Connection) :
    (Phase.relationsIn (Phase.databasesOf w cs)).getD [] =
      cs.flatMap fun c => ((w.servers.database c).toOption.map (·.graph.relations)).getD [] := by
  have hflat : ∀ dbs, (Phase.relationsIn dbs).getD [] = dbs.flatMap (·.graph.relations) := by
    intro dbs
    cases dbs <;> rfl
  rw [hflat, Phase.databasesOf]
  induction cs with
  | nil => rfl
  | cons c cs ih =>
    rw [List.filterMap_cons, List.flatMap_cons, ← ih]
    cases (w.servers.database c).toOption <;> rfl

/-- Whatever the settings are and whatever is read : each phase gives what it gives alone, the
phases that fail are noted and leave nothing, and connections that cannot be read are passed over. -/
theorem phasesApart (w : World) (s : Settings) : PhasesApart w s where
  alone p hp := by
    refine agrees_analyse ?_ (Phase.extract_only w s p).symm
    rw [Settings.phases_only]
    exact iff_of_true hp (List.mem_singleton_self p)
  reads p hp r hr := shows_analyse hp hr
  failing p _ h := shows_nothing_analyse fun _ => h
  elsewhere source h := lookup_foldl_step h
  failed := failed_analyse w s
  noted t := by
    rw [metadata, Data.get?, Data.lookup?, Data.listMember?, List.isEmpty_map, Data.texts,
      List.map_map]
    cases (analyse w s).failed <;> rfl
  databases h := by
    rw [failed_analyse] at h
    cases (List.mem_filter.1 h).2
  connections hp := (shows_analyse hp rfl).finding
  kinds hp kind := by
    have hkind : kind.code ∈ Phase.databases.sources :=
      List.mem_map_of_mem (by cases kind <;> decide)
    rw [relationsOf, (shows_analyse hp rfl).relations _ hkind]
    exact getD_relationsIn w _
  unread p := by
    refine agrees_analyse ?_ (Phase.extract_readable w s p).symm
    rw [Settings.phases_readable]

end Analyse

end Atlas
