import Atlas.Proofs.Json.Typed
import Atlas.Proofs.Result
import Atlas.Swagger.Read
import Atlas.Swagger.Record

/-!
# Reading a description again

Each record of a description is written as its members that have a value (`Schema.slots` and so on),
and is read again from them as it was. For schemas this is by recursion on the depth that is left
(`rereads_schema`). Members that are always written need a depth of their own, though they may have
been missing, so an operation, a path and a description are read again where some levels are left
(`rereads_operation`, `rereads_pathItem`, `rereads_spec`).

A description holds no numbers but those of the text it is read from (`Spec.inRange_of_read`). A
whole description is read again from its text (`Spec.read_prettyJson`).
-/

set_option linter.unusedSectionVars false

namespace Atlas.Swagger

open Json Json.Typed Data

/-! ## Members -/

theorem textMember?_eq (name : String) (s : Option String) :
    textMember? name s = member? name (s.map .text) := rfl

theorem recordMember?_eq {α : Type} (name : String) (f : α → String × Data) (as : List α) :
    recordMember? name (as.map f) =
      member? name (if as.isEmpty then none else some (.record (as.map f))) := by
  rw [recordMember?, List.isEmpty_map]
  split_ifs <;> rfl

theorem listMember?_eq {α : Type} (name : String) (f : α → Data) (as : List α) :
    listMember? name (as.map f) =
      member? name (if as.isEmpty then none else some (.list (as.map f))) := by
  rw [listMember?, List.isEmpty_map]
  split_ifs <;> rfl

theorem schemasData_eq (ps : List (String × Schema)) :
    schemasData ps = ps.map fun p => (p.1, p.2.toData) := by
  induction ps with
  | nil => rfl
  | cons p ps ih => rw [schemasData, ih, List.map_cons]

theorem itemsData_eq (s : Option Schema) : itemsData s = s.map (·.toData) := by
  cases s <;> rfl

/-! ## Schemas -/

/-- The members of a schema. -/
def Schema.slots (s : Schema) : List (String × Option Data) :=
  [("type", s.type.map .text), ("format", s.format.map .text),
    ("properties", if s.properties.isEmpty then none
      else some (.record (s.properties.map fun p => (p.1, p.2.toData)))),
    ("items", s.items.map (·.toData)), ("$ref", s.reference.map .text),
    ("example", s.sample.map fun d => d),
    ("enum", if s.values.isEmpty then none else some (.list (s.values.map fun d => d)))]

theorem Schema.toData_eq (s : Schema) : s.toData = ofSlots s.slots := by
  obtain ⟨type, format, properties, items, reference, sample, values⟩ := s
  have hvalues := listMember?_eq "enum" (fun d => d) values
  rw [List.map_id'] at hvalues
  rw [Schema.toData, schemasData_eq, itemsData_eq, hvalues, recordMember?_eq]
  simp [ofSlots, slots, textMember?_eq, Schema.type, Schema.format, Schema.properties,
    Schema.items, Schema.reference, Schema.sample, Schema.values]

section Schemas

variable {depth : ℕ}

theorem schemaFields?_again {inner : Tree → Option Schema}
    {properties : Tree → Option (List (String × Schema))} (hinner : Rereads inner Schema.toData)
    (hproperties : Rereads properties fun ps => .record (ps.map fun p => (p.1, p.2.toData)))
    {t : Tree} {s : Schema} (h : schemaFields? depth inner properties t = some s) :
    schemaFields? depth inner properties s.toData.toTree = some s ∧
      s.toData.numbers ⊆ t.numbers := by
  unfold schemaFields? at h ⊢
  simp only [Option.bind_eq_bind, Option.bind_eq_some_iff, Option.pure_def,
    Option.some.injEq] at h ⊢
  obtain ⟨fs, hfs, type, htype, format, hformat, ps, hps, items, hitems, reference, hreference,
    sample, hsample, values, hvalues, rfl⟩ := h
  rw [Schema.toData_eq]
  obtain ⟨fs', hfs', hlookup⟩ := @fields_ofSlots
    (Schema.slots (.mk type format ps items reference sample values)) (by simp [Schema.slots])
  have htype := field_again hfs (kept_optional rereads_text) htype (hlookup _)
  have hformat := field_again hfs (kept_optional rereads_text) hformat (hlookup _)
  have hps := field_again hfs (kept_nonempty hproperties) hps (hlookup _)
  have hitems := field_again hfs (kept_optional hinner) hitems (hlookup _)
  have hreference := field_again hfs (kept_optional rereads_text) hreference (hlookup _)
  have hsample := field_again hfs (kept_optional rereads_data) hsample (hlookup _)
  have hvalues := field_again hfs (kept_nonempty (rereads_list fun _ _ => rereads_data)) hvalues
    (hlookup _)
  refine ⟨⟨fs', hfs' _, type, htype.1, format, hformat.1, ps, hps.1, items, hitems.1, reference,
    hreference.1, sample, hsample.1, values, hvalues.1, rfl⟩, numbers_ofSlots ?_⟩
  simp only [Schema.slots, List.forall_mem_cons]
  exact ⟨htype.2, hformat.2, hps.2, hitems.2, hreference.2, hsample.2, hvalues.2,
    List.forall_mem_nil _⟩

theorem Schema.toData_ne_null (s : Schema) : s.toData ≠ .null := by
  rw [toData_eq]
  nofun

/-- A schema is read again with the depth at which it was read. -/
theorem rereads_schema : ∀ depth, Rereads (schema? depth) Schema.toData
  | 0 => rereads_none
  | 1 => ⟨schemaFields?_again rereads_none rereads_none, fun _ _ => Schema.toData_ne_null _⟩
  | depth + 2 =>
    ⟨schemaFields?_again (rereads_schema (depth + 1))
      (rereads_record fun _ _ => rereads_schema depth), fun _ _ => Schema.toData_ne_null _⟩

theorem rereads_schemas (depth : ℕ) :
    Rereads (record schema? depth) fun ps => .record (ps.map fun p => (p.1, p.2.toData)) :=
  rereads_record fun d _ => rereads_schema d

end Schemas

/-! ## Records of a description -/

/-- The members of what a description says of itself. -/
def Info.slots (i : Info) : List (String × Option Data) :=
  [("title", some (.text i.title)), ("version", some (.text i.version)),
    ("description", i.description.map .text)]

/-- A place where the API is served as plain data. -/
def Server.toData (s : Server) : Data :=
  .record (("url", .text s.url) :: textMember? "description" s.description)

/-- The members of a place where the API is served. -/
def Server.slots (s : Server) : List (String × Option Data) :=
  [("url", some (.text s.url)), ("description", s.description.map .text)]

/-- The members of a parameter. -/
def Parameter.slots (p : Parameter) : List (String × Option Data) :=
  [("name", some (.text p.name)), ("in", some (.text p.location)),
    ("required", some (.bool p.required)), ("description", p.description.map .text),
    ("schema", p.schema.map (·.toData)), ("x-example", p.sample.map fun d => d)]

/-- The members of a body in one format. -/
def MediaType.slots (m : MediaType) : List (String × Option Data) :=
  [("schema", m.schema.map (·.toData)), ("example", m.sample.map fun d => d)]

/-- A body as plain data. -/
def bodyData (content : List (String × MediaType)) : Data :=
  ofSlots [("content", some (.record (content.map fun m => (m.1, m.2.toData))))]

/-- The members of an operation. -/
def Operation.slots (o : Operation) : List (String × Option Data) :=
  [("summary", o.summary.map .text), ("description", o.description.map .text),
    ("operationId", o.id.map .text),
    ("tags", if o.tags.isEmpty then none else some (.list (o.tags.map .text))),
    ("parameters", if o.parameters.isEmpty then none
      else some (.list (o.parameters.map (·.toData)))),
    ("requestBody", o.body.map bodyData),
    ("security", o.security.map fun ds => .list (ds.map fun d => d))]

/-- The members of a path. -/
def PathItem.slots (p : PathItem) : List (String × Option Data) :=
  (Verb.all.map fun verb => (verb.word, (p.operation verb).map (·.toData))) ++
    [("parameters", if p.parameters.isEmpty then none
      else some (.list (p.parameters.map (·.toData))))]

/-- The schemas of the newer format as plain data. -/
def componentsData (schemas : List (String × Schema)) : Data :=
  ofSlots [("schemas", some (.record (schemas.map fun p => (p.1, p.2.toData))))]

/-- The members of a description. -/
def Spec.slots (s : Spec) : List (String × Option Data) :=
  [("swagger", s.swagger.map .text), ("openapi", s.openapi.map .text),
    ("info", some s.info.toData), ("host", s.host.map .text),
    ("basePath", s.basePath.map .text),
    ("servers", if s.servers.isEmpty then none else some (.list (s.servers.map (·.toData)))),
    ("paths", some (.record (s.paths.map fun p => (p.1, p.2.toData)))),
    ("components", s.components.map componentsData),
    ("definitions", if s.definitions.isEmpty then none
      else some (.record (s.definitions.map fun p => (p.1, p.2.toData))))]

theorem Info.toData_eq (i : Info) : i.toData = ofSlots i.slots := by
  simp [toData, ofSlots, slots, textMember?_eq, member?]

theorem Server.toData_eq (s : Server) : s.toData = ofSlots s.slots := by
  simp [toData, ofSlots, slots, textMember?_eq, member?]

theorem Parameter.toData_eq (p : Parameter) : p.toData = ofSlots p.slots := by
  simp [toData, ofSlots, slots, textMember?_eq, member?]

theorem MediaType.toData_eq (m : MediaType) : m.toData = ofSlots m.slots := by
  simp [toData, ofSlots, slots]

theorem Operation.toData_eq (o : Operation) : o.toData = ofSlots o.slots := by
  simp only [toData, ofSlots, slots, textMember?_eq, listMember?_eq, List.map_id',
    List.flatMap_cons, List.flatMap_nil, List.append_assoc, List.append_nil]
  rfl

theorem PathItem.toData_eq (p : PathItem) : p.toData = ofSlots p.slots := by
  simp only [toData, ofSlots, slots, listMember?_eq, List.flatMap_append, List.flatMap_map,
    List.flatMap_cons, List.flatMap_nil, List.append_nil]

theorem Spec.toData_eq (s : Spec) : s.toData = ofSlots s.slots := by
  simp only [toData, ofSlots, slots, textMember?_eq, listMember?_eq, recordMember?_eq,
    schemasData_eq, List.flatMap_cons, List.flatMap_nil, List.append_assoc, List.append_nil]
  rfl

/-! ## Reading a description again -/

section Again

variable (depth : ℕ)

theorem rereads_info : Rereads (info? depth) Info.toData where
  again {t i} h := by
    cases depth with
    | zero => cases h
    | succ depth =>
      simp only [info?, Option.bind_eq_bind, Option.bind_eq_some_iff, Option.pure_def,
        Option.some.injEq] at h ⊢
      obtain ⟨fs, hfs, title, htitle, version, hversion, description, hdescription, rfl⟩ := h
      rw [Info.toData_eq]
      obtain ⟨fs', hfs', hlookup⟩ := @fields_ofSlots
        (Info.slots ⟨title, version, description⟩) (by simp [Info.slots])
      have htitle := field_again hfs (kept_always rereads_text ⟨rfl, rfl⟩) htitle (hlookup _)
      have hversion := field_again hfs (kept_always rereads_text ⟨rfl, rfl⟩) hversion (hlookup _)
      have hdescription := field_again hfs (kept_optional rereads_text) hdescription (hlookup _)
      refine ⟨⟨fs', hfs' _, title, htitle.1, version, hversion.1, description, hdescription.1, rfl⟩,
        numbers_ofSlots ?_⟩
      simp only [Info.slots, List.forall_mem_cons]
      exact ⟨htitle.2, hversion.2, hdescription.2, List.forall_mem_nil _⟩
  notNull _ _ := nofun

theorem rereads_server : Rereads (server? depth) Server.toData where
  again {t s} h := by
    cases depth with
    | zero => cases h
    | succ depth =>
      simp only [server?, Option.bind_eq_bind, Option.bind_eq_some_iff, Option.pure_def,
        Option.some.injEq] at h ⊢
      obtain ⟨fs, hfs, url, hurl, description, hdescription, rfl⟩ := h
      rw [Server.toData_eq]
      obtain ⟨fs', hfs', hlookup⟩ := @fields_ofSlots
        (Server.slots ⟨url, description⟩) (by simp [Server.slots])
      have hurl := required_again hfs rereads_text hurl (hlookup _)
      have hdescription := field_again hfs (kept_optional rereads_text) hdescription (hlookup _)
      refine ⟨⟨fs', hfs' _, url, hurl.1, description, hdescription.1, rfl⟩, numbers_ofSlots ?_⟩
      simp only [Server.slots, List.forall_mem_cons]
      exact ⟨hurl.2, hdescription.2, List.forall_mem_nil _⟩
  notNull _ _ := nofun

theorem rereads_parameter : Rereads (parameter? depth) Parameter.toData where
  again {t p} h := by
    cases depth with
    | zero => cases h
    | succ depth =>
      simp only [parameter?, Option.bind_eq_bind, Option.bind_eq_some_iff, Option.pure_def,
        Option.some.injEq] at h ⊢
      obtain ⟨fs, hfs, name, hname, location, hlocation, required, hrequired, description,
        hdescription, schema, hschema, sample, hsample, rfl⟩ := h
      rw [Parameter.toData_eq]
      obtain ⟨fs', hfs', hlookup⟩ := @fields_ofSlots
        (Parameter.slots ⟨name, location, required, description, schema, sample⟩)
        (by simp [Parameter.slots])
      have hname := required_again hfs rereads_text hname (hlookup _)
      have hlocation := required_again hfs rereads_text hlocation (hlookup _)
      have hrequired := field_again hfs (kept_always rereads_bool ⟨rfl, rfl⟩) hrequired (hlookup _)
      have hdescription := field_again hfs (kept_optional rereads_text) hdescription (hlookup _)
      have hschema := field_again hfs (kept_optional (rereads_schema depth)) hschema (hlookup _)
      have hsample := field_again hfs (kept_optional rereads_data) hsample (hlookup _)
      refine ⟨⟨fs', hfs' _, name, hname.1, location, hlocation.1, required, hrequired.1,
        description, hdescription.1, schema, hschema.1, sample, hsample.1, rfl⟩,
        numbers_ofSlots ?_⟩
      simp only [Parameter.slots, List.forall_mem_cons]
      exact ⟨hname.2, hlocation.2, hrequired.2, hdescription.2, hschema.2, hsample.2,
        List.forall_mem_nil _⟩
  notNull _ _ := nofun

theorem rereads_mediaType : Rereads (mediaType? depth) MediaType.toData where
  again {t m} h := by
    cases depth with
    | zero => cases h
    | succ depth =>
      simp only [mediaType?, Option.bind_eq_bind, Option.bind_eq_some_iff, Option.pure_def,
        Option.some.injEq] at h ⊢
      obtain ⟨fs, hfs, schema, hschema, sample, hsample, rfl⟩ := h
      rw [MediaType.toData_eq]
      obtain ⟨fs', hfs', hlookup⟩ := @fields_ofSlots
        (MediaType.slots ⟨schema, sample⟩) (by simp [MediaType.slots])
      have hschema := field_again hfs (kept_optional (rereads_schema depth)) hschema (hlookup _)
      have hsample := field_again hfs (kept_optional rereads_data) hsample (hlookup _)
      refine ⟨⟨fs', hfs' _, schema, hschema.1, sample, hsample.1, rfl⟩, numbers_ofSlots ?_⟩
      simp only [MediaType.slots, List.forall_mem_cons]
      exact ⟨hschema.2, hsample.2, List.forall_mem_nil _⟩
  notNull _ _ := nofun

theorem rereads_body : Rereads (body? (depth + 2)) bodyData where
  again {t content} h := by
    simp only [body?, Option.bind_eq_bind, Option.bind_eq_some_iff] at h ⊢
    obtain ⟨fs, hfs, hcontent⟩ := h
    obtain ⟨fs', hfs', hlookup⟩ := @fields_ofSlots
      [("content", some (.record (content.map fun m => (m.1, m.2.toData))))] (by simp)
    have hcontent := field_again hfs
      (kept_always (rereads_record fun d _ => rereads_mediaType d) ⟨rfl, rfl⟩) hcontent (hlookup _)
    refine ⟨⟨fs', hfs' _, hcontent.1⟩, numbers_ofSlots ?_⟩
    exact List.forall_mem_singleton.2 hcontent.2
  notNull _ _ := nofun

theorem rereads_components : Rereads (components? (depth + 2)) componentsData where
  again {t schemas} h := by
    simp only [components?, Option.bind_eq_bind, Option.bind_eq_some_iff] at h ⊢
    obtain ⟨fs, hfs, hschemas⟩ := h
    obtain ⟨fs', hfs', hlookup⟩ := @fields_ofSlots
      [("schemas", some (.record (schemas.map fun p => (p.1, p.2.toData))))] (by simp)
    have hschemas := field_again hfs
      (kept_always (rereads_schemas (depth + 1)) ⟨rfl, rfl⟩) hschemas (hlookup _)
    refine ⟨⟨fs', hfs' _, hschemas.1⟩, numbers_ofSlots ?_⟩
    exact List.forall_mem_singleton.2 hschemas.2
  notNull _ _ := nofun

theorem rereads_operation : Rereads (operation? (depth + 3)) Operation.toData where
  again {t o} h := by
    simp only [operation?, Option.bind_eq_bind, Option.bind_eq_some_iff, Option.pure_def,
      Option.some.injEq] at h ⊢
    obtain ⟨fs, hfs, summary, hsummary, description, hdescription, id, hid, tags, htags, parameters,
      hparameters, body, hbody, security, hsecurity, rfl⟩ := h
    rw [Operation.toData_eq]
    obtain ⟨fs', hfs', hlookup⟩ := @fields_ofSlots
      (Operation.slots ⟨summary, description, id, tags, parameters, body, security⟩)
      (by simp [Operation.slots])
    have hsummary := field_again hfs (kept_optional rereads_text) hsummary (hlookup _)
    have hdescription := field_again hfs (kept_optional rereads_text) hdescription (hlookup _)
    have hid := field_again hfs (kept_optional rereads_text) hid (hlookup _)
    have htags := field_again hfs (kept_nonempty (rereads_list fun _ _ => rereads_text)) htags
      (hlookup _)
    have hparameters := field_again hfs
      (kept_nonempty (rereads_list fun d _ => rereads_parameter d)) hparameters (hlookup _)
    have hbody := field_again hfs (kept_optional (rereads_body depth)) hbody (hlookup _)
    have hsecurity := field_again hfs (kept_optional (rereads_list fun _ _ => rereads_data))
      hsecurity (hlookup _)
    refine ⟨⟨fs', hfs' _, summary, hsummary.1, description, hdescription.1, id, hid.1, tags,
      htags.1, parameters, hparameters.1, body, hbody.1, security, hsecurity.1, rfl⟩,
      numbers_ofSlots ?_⟩
    simp only [Operation.slots, List.forall_mem_cons]
    exact ⟨hsummary.2, hdescription.2, hid.2, htags.2, hparameters.2, hbody.2, hsecurity.2,
      List.forall_mem_nil _⟩
  notNull _ _ := nofun

theorem rereads_pathItem : Rereads (pathItem? (depth + 4)) PathItem.toData where
  again {t p} h := by
    simp only [pathItem?, Option.bind_eq_bind, Option.bind_eq_some_iff, Option.pure_def,
      Option.some.injEq] at h ⊢
    obtain ⟨fs, hfs, operations, hoperations, parameters, hparameters, rfl⟩ := h
    rw [PathItem.toData_eq]
    obtain ⟨fs', hfs', hlookup⟩ := @fields_ofSlots
      (PathItem.slots ⟨fun verb => (operations.lookup verb).join, parameters⟩)
      (by simp [PathItem.slots, Verb.all, Verb.word])
    have hverb : ∀ verb : Verb,
        field fs' (depth + 3) verb.word none (optional operation?) =
          field fs (depth + 3) verb.word none (optional operation?) ∧
        ∀ d ∈ (operations.lookup verb).join.map (·.toData), d.numbers ⊆ t.numbers := fun verb => by
      obtain ⟨o, ho, hfound⟩ := lookup_of_mapM hoperations (show verb ∈ Verb.all by
        cases verb <;> decide)
      have hoperation : (operations.lookup verb).join = o := by rw [hfound, Option.join_some]
      rw [ho, hoperation]
      refine field_again hfs (kept_optional (rereads_operation depth)) ho ?_
      rw [← hoperation]
      cases verb <;> exact hlookup _
    have hparameters := field_again hfs
      (kept_nonempty (rereads_list fun d _ => rereads_parameter d)) hparameters (hlookup _)
    refine ⟨⟨fs', hfs' _, operations, ?_, parameters, hparameters.1, rfl⟩, numbers_ofSlots ?_⟩
    · simp only [(hverb _).1]
      exact hoperations
    · refine List.forall_mem_append.2 ⟨?_, List.forall_mem_singleton.2 hparameters.2⟩
      exact List.forall_mem_map.2 fun verb _ => (hverb verb).2
  notNull _ _ := nofun

theorem rereads_spec : Rereads (spec? (depth + 6)) Spec.toData where
  again {t s} h := by
    simp only [spec?, Option.bind_eq_bind, Option.bind_eq_some_iff, Option.pure_def,
      Option.some.injEq] at h ⊢
    obtain ⟨fs, hfs, swagger, hswagger, openapi, hopenapi, info, hinfo, host, hhost, basePath,
      hbasePath, servers, hservers, paths, hpaths, components, hcomponents, definitions,
      hdefinitions, rfl⟩ := h
    rw [Spec.toData_eq]
    obtain ⟨fs', hfs', hlookup⟩ := @fields_ofSlots
      (Spec.slots ⟨swagger, openapi, info, host, basePath, servers, paths, components, definitions⟩)
      (by simp [Spec.slots])
    have hrecord : Rereads (record pathItem? (depth + 5)) _ :=
      rereads_record fun d hd => by
        obtain rfl : d = depth + 4 := by omega
        exact rereads_pathItem depth
    have hswagger := field_again hfs (kept_optional rereads_text) hswagger (hlookup _)
    have hopenapi := field_again hfs (kept_optional rereads_text) hopenapi (hlookup _)
    have hinfo := field_again hfs (kept_always (rereads_info (depth + 5)) ⟨rfl, rfl⟩) hinfo
      (hlookup _)
    have hhost := field_again hfs (kept_optional rereads_text) hhost (hlookup _)
    have hbasePath := field_again hfs (kept_optional rereads_text) hbasePath (hlookup _)
    have hservers := field_again hfs (kept_nonempty (rereads_list fun d _ => rereads_server d))
      hservers (hlookup _)
    have hpaths := field_again hfs (kept_always hrecord ⟨rfl, rfl⟩) hpaths (hlookup _)
    have hcomponents := field_again hfs (kept_optional (rereads_components (depth + 3)))
      hcomponents (hlookup _)
    have hdefinitions := field_again hfs (kept_nonempty (rereads_schemas (depth + 5))) hdefinitions
      (hlookup _)
    refine ⟨⟨fs', hfs' _, swagger, hswagger.1, openapi, hopenapi.1, info, hinfo.1, host, hhost.1,
      basePath, hbasePath.1, servers, hservers.1, paths, hpaths.1, components, hcomponents.1,
      definitions, hdefinitions.1, rfl⟩, numbers_ofSlots ?_⟩
    simp only [Spec.slots, List.forall_mem_cons]
    exact ⟨hswagger.2, hopenapi.2, hinfo.2, hhost.2, hbasePath.2, hservers.2, hpaths.2,
      hcomponents.2, hdefinitions.2, List.forall_mem_nil _⟩
  notNull _ _ := nofun

end Again

section Text

variable {text : String} {spec : Spec}

theorem Spec.exists_tree_of_read (h : Spec.read text = .ok spec) :
    (spec.swagger.isNone && spec.openapi.isNone) = false ∧
    ∃ t, tree? text = some t ∧ spec? maxDepth t = some spec := by
  unfold Spec.read at h
  split at h
  · cases h
  · rename_i read hread
    split_ifs at h with hformat
    obtain rfl := Except.ok.inj h
    exact ⟨Bool.eq_false_iff.2 hformat, Option.bind_eq_some_iff.1 hread⟩

/-- The integers in a description that is read are integers of the text, so they are in range. -/
theorem Spec.inRange_of_read (h : Spec.read text = .ok spec) :
    ∀ n ∈ spec.toData.numbers, InRange n := by
  obtain ⟨-, t, ht, hspec⟩ := Spec.exists_tree_of_read h
  have hsubset : spec.toData.numbers ⊆ t.numbers := ((rereads_spec (maxDepth - 6)).again hspec).2
  exact fun n hn => inRange_of_tree? ht n (hsubset hn)

/-- A description that is read is read again from its text, over several lines and at any
indentation, if its floating-point numbers are read back. -/
theorem Spec.read_prettyJson (h : Spec.read text = .ok spec)
    (hfloats : ∀ x, .float x ∈ spec.toData.numbers → ReadsBack (.float x)) (depth : ℕ) :
    Spec.read (prettyJson depth spec.toData) = .ok spec := by
  have hnumbers : ∀ n ∈ spec.toData.numbers, ReadsBack n := fun n hn => by
    cases n with
    | int i => exact readsBack_int (Spec.inRange_of_read h _ hn)
    | float x => exact hfloats x hn
  obtain ⟨hformat, t, -, ht⟩ := Spec.exists_tree_of_read h
  have hagain : spec? maxDepth spec.toData.toTree = some spec :=
    ((rereads_spec (maxDepth - 6)).again ht).1
  rw [Spec.read, tree?_prettyJson depth hnumbers, Option.bind_some, hagain]
  exact if_neg (Bool.eq_false_iff.1 hformat)

end Text

/-- A description that leaves out some members and writes others in another way. -/
def cartText : String :=
  "\x7b\"openapi\": \"3.0.0\", \"info\": [\"Cart\"], \"paths\": \x7b\"/items\": \x7b\"post\": \x7b" ++
    "\"requestBody\": \x7b\x7d, \"parameters\": [\x7b\"in\": \"query\", \"name\": \"max\", " ++
    "\"x-example\": 2.5, \"schema\": \x7b\"$ref\": null, \"enum\": [null, 7]\x7d\x7d]\x7d\x7d\x7d\x7d"

theorem read_prettyJson_cartText : ∃ spec, Spec.read cartText = .ok spec ∧
    spec.toData.numbers = [.int 7, .float (Binary64.ofRatio false 5 2)] ∧
    Spec.read spec.toData.toPrettyJson = .ok spec := by
  have hnumbers : (Spec.read cartText).toOption.map (·.toData.numbers) =
      some [.int 7, .float (Binary64.ofRatio false 5 2)] := by decide +kernel
  obtain ⟨spec, hread, hspec⟩ := Option.map_eq_some_iff.1 hnumbers
  have h : Spec.read cartText = .ok spec := toOption_eq_some_iff.1 hread
  refine ⟨spec, h, hspec, Spec.read_prettyJson h (fun x hx => ?_) 0⟩
  rw [hspec] at hx
  obtain rfl : x = Binary64.ofRatio false 5 2 := by simpa using hx
  decide +kernel

end Atlas.Swagger
