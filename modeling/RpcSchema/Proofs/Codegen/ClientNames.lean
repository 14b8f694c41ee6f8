import RpcSchema.Proofs.Codegen.UsedTypes

set_option autoImplicit false

/-!
# Names that clash in a client

The names in a client come from different sources: those of the classes from the paths to the
services, those of their members from single segments, and those of the types from the registry,
which is not told of the others. Neither is a class or a member registered anywhere. So names clash
exactly when different paths or segments become the same by the change of case, when a segment
becomes the name of the field that every class has, or when a type is called like a class.

Where no names clash, every procedure is reached from the client along the members that the segments
of its key are called by.

## Main definitions

* `RpcSchema.TypeScript.Client.exports`, `RpcSchema.TypeScript.ClientClass.members` — the names that
  a client and its classes introduce.
* `RpcSchema.TypeScript.Client.NamesApart` — no names clash.
* `RpcSchema.TypeScript.Client.method?` — the method that members lead to.
* `RpcSchema.TypeScript.ServicesApart`, `RpcSchema.TypeScript.MembersApart` — keys whose services
  and segments keep different names.

## Main results

* `RpcSchema.TypeScript.Client.MadeFor.nodup_exports_iff`,
  `RpcSchema.TypeScript.Client.MadeFor.nodup_members_iff` — when names clash.
* `RpcSchema.TypeScript.namesApart_iff_of_render` — the same for a client that has been rendered,
  with the ways to its procedures.
-/

namespace RpcSchema.TypeScript

open Outcome (exists_of_forall₂_right map_eq_map_of_forall₂)

/-! ## Names -/

/-- **The names that a client exports**: the type of its options, its classes, and the types that
its outlines declare. -/
def Client.exports (client : Client) (types : List Outline) : List String :=
  optionsType client.name :: (client.classes.map ClientClass.name ++
    (Outline.declaredIn types).map Outline.typeName)

/-- **The members of a class**: the options, the fields for the services and the methods. -/
def ClientClass.members (cls : ClientClass) : List String :=
  "options" :: (cls.services.map ServiceField.name ++ cls.methods.map ClientMethod.name)

/-- **No names clash** in a client. -/
structure Client.NamesApart (types : List Outline) (client : Client) : Prop where
  exports : (client.exports types).Nodup
  members : ∀ cls ∈ client.classes, cls.members.Nodup

/-- **A client exports a name**: its text holds a declaration with the name. -/
def Client.Exports (config : GeneratorConfig) (client : Client) (name : String) : Prop :=
  ∃ keyword ∈ ["export interface ", "export class ", "export type "],
    StandsIn (keyword ++ name ++ " ") (client.text config)

/-- **A class has a member**: its text holds a field or a method with the name. -/
def ClientClass.HasMember (config : GeneratorConfig) (client : String) (cls : ClientClass)
    (name : String) : Prop :=
  ∃ mark ∈ [": ", "("], StandsIn (name ++ mark) (cls.text config client)

/-- The method that members lead to from a class: fields from class to class, then a method. -/
def Client.methodBelow? (client : Client) : ClientClass → List String → Option ClientMethod
  | _, [] => none
  | cls, [name] => (cls.methods.map fun method => (method.name, method)).lookup name
  | cls, name :: rest => do
    let className ← (cls.services.map fun field => (field.name, field.className)).lookup name
    let inner ← (client.classes.map fun inner => (inner.name, inner)).lookup className
    client.methodBelow? inner rest

/-- **The method that members lead to** from the class of the client itself. -/
def Client.method? (client : Client) (members : List String) : Option ClientMethod :=
  client.classes.head?.bind fun root => client.methodBelow? root members

/-! ## Keys -/

/-- **Services keep different names**: no two lists of segments that lead on to a key become the
same path in Pascal case. -/
def ServicesApart (procedures : Entries Procedure) : Prop :=
  ∀ path path', path ≠ [] → path' ≠ [] →
    (∃ key ∈ Entries.keys procedures, ProperPrefix path (Procedure.segments key)) →
    (∃ key ∈ Entries.keys procedures, ProperPrefix path' (Procedure.segments key)) →
    Naming.pascalPath ("/".intercalate path) = Naming.pascalPath ("/".intercalate path') →
    path = path'

/-- **Segments keep different names**: where keys go on in two ways, these are different in camel
case, and neither is the name of the options. -/
def MembersApart (procedures : Entries Procedure) : Prop :=
  ∀ path segment, (∃ key ∈ Entries.keys procedures, path ++ [segment] <+: Procedure.segments key) →
    Text.camel segment ≠ "options" ∧
      ∀ other, (∃ key ∈ Entries.keys procedures, path ++ [other] <+: Procedure.segments key) →
        Text.camel segment = Text.camel other → segment = other

/-! ## Names of classes -/

theorem className_inj {client : String} {path path' : List String} :
    className client path = className client path' ↔
      Naming.pascalPath ("/".intercalate path) = Naming.pascalPath ("/".intercalate path') := by
  simp only [className, ← String.toList_inj, String.toList_append, List.append_cancel_left_eq,
    List.append_cancel_right_eq]

/-- A service is not called like the client. -/
theorem className_ne_self (client : String) (path : List String) :
    className client path ≠ client := by
  intro h
  have hlength := congrArg (fun name => name.toList.length) h
  simp [className, String.toList_append] at hlength

theorem getLast?_className (client : String) (path : List String) :
    (className client path).toList.getLast? = some 'e' := by
  simp [className, String.toList_append]

/-- A service is not called like the type of the options. -/
theorem className_ne_optionsType (client : String) (path : List String) :
    className client path ≠ optionsType client := by
  intro h
  have hlast := congrArg (fun name => name.toList.getLast?) h
  simp [getLast?_className, optionsType, String.toList_append] at hlast

/-- The client is not called like the type of its options. -/
theorem ne_optionsType (client : String) : client ≠ optionsType client := by
  intro h
  have hlength := congrArg (fun name => name.toList.length) h
  simp [optionsType, String.toList_append] at hlength

namespace Client.MadeFor

variable {config : GeneratorConfig} {options : GeneratorOptions} {definition : Definition}
  {tree : Service} {types : List Outline} {client : Client}

theorem forall₂_classes (h : client.MadeFor config options definition tree types) :
    List.Forall₂ (ClientClass.MadeFor ((backend config).scheme definition.models) client.name
      client.name []) tree.levels client.classes :=
  forall₂_serviceClasses tree h.classes_ok

/-- The classes of a client are called after the paths to the levels. -/
theorem map_name_eq (h : client.MadeFor config options definition tree types) :
    client.classes.map ClientClass.name =
      tree.paths.map fun path => if path = [] then client.name else className client.name path := by
  rw [Service.paths, List.map_map]
  refine (map_eq_map_of_forall₂ (h.forall₂_classes.imp fun level cls hmade => ?_)).symm
  rw [hmade.name_eq, hmade.path_eq]
  rfl

/-- **The classes of a client have different names** exactly when its services keep theirs. -/
theorem nodup_names_iff (h : client.MadeFor config options definition tree types) :
    (client.classes.map ClientClass.name).Nodup ↔ ServicesApart definition.procedures := by
  have hpaths := Service.nodup_paths (Service.perm_leaves_ofProcedures h.tree_ok).1
  have hmem (path : List String) : path ∈ tree.paths ↔ ∃ key ∈
      Entries.keys definition.procedures, ProperPrefix path (Procedure.segments key) :=
    Service.mem_paths_iff_of_ofProcedures h.procedures_ne_nil h.tree_ok
  rw [h.map_name_eq, List.nodup_map_iff_inj_on hpaths]
  constructor
  · intro hinj path path' hpath hpath' hkey hkey' hsame
    refine hinj path ((hmem path).mpr hkey) path' ((hmem path').mpr hkey') ?_
    rw [if_neg hpath, if_neg hpath']
    exact className_inj.mpr hsame
  · intro hapart path hpath path' hpath' hsame
    rw [hmem] at hpath hpath'
    -- The client itself is not called like a service, so that both are the root or neither is.
    split_ifs at hsame with hroot hroot' hroot'
    · rw [hroot, hroot']
    · exact absurd hsame.symm (className_ne_self _ _)
    · exact absurd hsame (className_ne_self _ _)
    · exact hapart path path' hroot hroot' hpath hpath' (className_inj.mp hsame)

/-- No two types that a client declares have one name. -/
theorem nodup_declared (h : client.MadeFor config options definition tree types) :
    ((Outline.declaredIn types).map Outline.typeName).Nodup := by
  obtain ⟨final, htypes⟩ := h.types_ok
  obtain ⟨models, middle, hmodels, htypes⟩ := Pass.bind_eq_ok_iff.mp htypes
  obtain ⟨errors, last, herrors, htypes⟩ := Pass.bind_eq_ok_iff.mp htypes
  obtain ⟨rfl, rfl⟩ := Pass.pure_eq_ok_iff.mp htypes
  have hbuilds := (Models.builds_outlines _ hmodels).trans (Schema.builds_outline _ herrors)
  rw [← List.flatMap_singleton Outline.parts errors, ← List.flatMap_append] at hbuilds
  exact (hbuilds.declaresOnce (declaresNamed_backend config)).once

/-- **The exported names of a client are different** exactly when its services keep different names
and no type that it declares is called like the type of the options or like a class. -/
theorem nodup_exports_iff (h : client.MadeFor config options definition tree types) :
    (client.exports types).Nodup ↔ ServicesApart definition.procedures ∧
      ∀ part ∈ Outline.declaredIn types,
        part.typeName ∉ optionsType client.name :: client.classes.map ClientClass.name := by
  have hoptions : optionsType client.name ∉ client.classes.map ClientClass.name := by
    rw [h.map_name_eq]
    intro hmem
    obtain ⟨path, -, hname⟩ := List.mem_map.mp hmem
    split_ifs at hname
    · exact ne_optionsType _ hname
    · exact className_ne_optionsType _ _ hname
  rw [exports, List.nodup_cons, List.nodup_append, h.nodup_names_iff, List.mem_append, not_or]
  simp only [hoptions, not_false_eq_true, true_and, h.nodup_declared, List.mem_cons, not_or]
  constructor
  · rintro ⟨hnone, hservices, hdisjoint⟩
    refine ⟨hservices, fun part hpart => ⟨fun heq => hnone ?_, fun hname => ?_⟩⟩
    · exact heq ▸ List.mem_map_of_mem hpart
    · exact hdisjoint _ hname _ (List.mem_map_of_mem hpart) rfl
  · rintro ⟨hservices, htypes⟩
    refine ⟨fun hmem => ?_, hservices, fun name hname other hother heq => ?_⟩
    · obtain ⟨part, hpart, heq⟩ := List.mem_map.mp hmem
      exact (htypes part hpart).1 heq
    · obtain ⟨part, hpart, rfl⟩ := List.mem_map.mp hother
      exact (htypes part hpart).2 (heq ▸ hname)

end Client.MadeFor

/-! ## Names of members -/

/-- A method is called after the last segment of the key of its procedure, and made for this key. -/
theorem name_of_clientMethod {scheme : NameScheme} {path : List String} {segment : String}
    {procedure : Procedure} {method : ClientMethod}
    (h : clientMethod scheme path segment procedure = .ok method) :
    method.name = Text.camel segment ∧ method.key = ".".intercalate (path ++ [segment]) ∧
      method.procedure = procedure := by
  have hsite := (of_clientMethod h).1
  rw [siteOf, List.getLastD_concat] at hsite
  obtain ⟨-, hkey, hname, hprocedure⟩ := MethodSite.mk.inj hsite
  exact ⟨hname.symm, hkey.symm, hprocedure.symm⟩

/-- The members of a class for a level are called after the segments that lead on from it. -/
theorem ClientClass.MadeFor.members_eq {scheme : NameScheme} {client name : String}
    {path : List String} {level : Level} {cls : ClientClass}
    (h : cls.MadeFor scheme client name path level) :
    cls.members = "options" :: level.segments.map Text.camel := by
  have hmethods : cls.methods.map ClientMethod.name =
      (Entries.keys level.2.procedures).map Text.camel := by
    rw [Entries.keys, List.map_map]
    refine (map_eq_map_of_forall₂ (h.methods.imp fun entry method hmethod => ?_)).symm
    exact (name_of_clientMethod hmethod).1.symm
  rw [ClientClass.members, h.services_eq, hmethods, Level.segments, List.map_append]
  simp [serviceFields, Entries.keys, Function.comp_def]

/-- **The members of the classes of a client have different names** exactly when segments keep
theirs. -/
theorem Client.MadeFor.nodup_members_iff {config : GeneratorConfig} {options : GeneratorOptions}
    {definition : Definition} {tree : Service} {types : List Outline} {client : Client}
    (h : client.MadeFor config options definition tree types) :
    (∀ cls ∈ client.classes, cls.members.Nodup) ↔ MembersApart definition.procedures := by
  have hproper := (Service.perm_leaves_ofProcedures h.tree_ok).1
  have hmem {level : Level} (hlevel : level ∈ tree.levels) (segment : String) :
      segment ∈ level.segments ↔ ∃ key ∈ Entries.keys definition.procedures,
        level.1 ++ [segment] <+: Procedure.segments key :=
    Service.mem_segments_iff_of_ofProcedures h.procedures_ne_nil h.tree_ok hlevel
  have hone {level : Level} (hlevel : level ∈ tree.levels) {cls : ClientClass}
      (hmade : cls.MadeFor ((backend config).scheme definition.models) client.name client.name []
        level) :
      cls.members.Nodup ↔ ∀ segment ∈ level.segments, Text.camel segment ≠ "options" ∧
        ∀ other ∈ level.segments, Text.camel segment = Text.camel other → segment = other := by
    rw [hmade.members_eq, List.nodup_cons, List.nodup_map_iff_inj_on
      (Service.nodup_segments hproper hlevel)]
    simp only [List.mem_map, not_exists, not_and, forall_and]
  constructor
  · intro hnodup path segment hsegment
    obtain ⟨key, hkey, hprefix⟩ := hsegment
    have hpath : path ∈ tree.paths :=
      (Service.mem_paths_iff_of_ofProcedures h.procedures_ne_nil h.tree_ok).mpr
        ⟨key, hkey, properPrefix_of_concat hprefix⟩
    obtain ⟨level, hlevel, rfl⟩ := List.mem_map.mp hpath
    obtain ⟨cls, hcls, hmade⟩ := exists_of_forall₂_right h.forall₂_classes.flip level hlevel
    obtain ⟨hoptions, hapart⟩ := (hone hlevel hmade).mp (hnodup cls hcls) segment
      ((hmem hlevel segment).mpr ⟨key, hkey, hprefix⟩)
    exact ⟨hoptions, fun other hother => hapart other ((hmem hlevel other).mpr hother)⟩
  · intro hapart cls hcls
    obtain ⟨level, hlevel, hmade⟩ := exists_of_forall₂_right h.forall₂_classes cls hcls
    refine (hone hlevel hmade).mpr fun segment hsegment => ?_
    obtain ⟨hoptions, hothers⟩ := hapart level.1 segment ((hmem hlevel segment).mp hsegment)
    exact ⟨hoptions, fun other hother => hothers other ((hmem hlevel other).mp hother)⟩

/-! ## Ways to procedures -/

/-- What is listed under names of its own is found by its name. -/
theorem lookup_of_nodup {α β : Type} {items : List α} {name : α → String} {value : α → β}
    (h : (items.map name).Nodup) {item : α} (hitem : item ∈ items) :
    (items.map fun other => (name other, value other)).lookup (name item) = some (value item) := by
  refine Entries.lookup_of_mem ?_ (List.mem_map_of_mem hitem)
  rw [Entries.Distinct, Entries.keys, List.map_map]
  exact h

namespace Client.MadeFor

variable {config : GeneratorConfig} {options : GeneratorOptions} {definition : Definition}
  {tree : Service} {types : List Outline} {client : Client}

/-- **From the class for a level** the members for the remaining segments of a key lead to the
method of its procedure. -/
theorem exists_methodBelow (h : client.MadeFor config options definition tree types)
    (hapart : client.NamesApart types) {key : String} {procedure : Procedure}
    (hentry : (key, procedure) ∈ definition.procedures) :
    ∀ (rest path : List String), rest ≠ [] → Procedure.segments key = path ++ rest →
    ∀ {service : Service} {cls : ClientClass}, (path, service) ∈ tree.levels →
      cls ∈ client.classes →
      cls.MadeFor ((backend config).scheme definition.models) client.name client.name []
        (path, service) →
      ∃ method, client.methodBelow? cls (rest.map Text.camel) = some method ∧
        method.key = key ∧ method.procedure = procedure := by
  intro rest
  induction rest with
  | nil => exact fun _ hne => absurd rfl hne
  | cons segment rest ih =>
    intro path _ hsegments service cls hlevel hcls hmade
    have hpath : cls.path = path := hmade.path_eq
    have hmembers := hapart.members cls hcls
    rw [ClientClass.members, List.nodup_cons, List.nodup_append] at hmembers
    obtain ⟨-, hservices, hmethods, -⟩ := hmembers
    cases rest with
    | nil =>
      have hmem := (Service.mem_procedures_iff_of_ofProcedures h.tree_ok hlevel).mpr
        ⟨key, hentry, hsegments⟩
      obtain ⟨method, hmethod, hfrom⟩ := exists_of_forall₂_right hmade.methods.flip _ hmem
      obtain ⟨hname, hkey, hprocedure⟩ := name_of_clientMethod hfrom
      refine ⟨method, ?_, ?_, hprocedure⟩
      · rw [List.map_singleton, methodBelow?, ← hname]
        exact lookup_of_nodup hmethods hmethod
      · rw [hkey, hpath, ← hsegments, Procedure.intercalate_segments]
    | cons next rest =>
      -- The way leads through a service, and its class is found by its name.
      have hprefix : path ++ [segment] ++ [next] <+: Procedure.segments key :=
        ⟨rest, by simp [hsegments]⟩
      have hsegment := (Service.mem_keys_services_iff_of_ofProcedures h.procedures_ne_nil h.tree_ok
        hlevel).mpr ⟨key, Entries.mem_keys_of_mem hentry, properPrefix_of_concat hprefix⟩
      obtain ⟨⟨segment, inner⟩, hinner, rfl⟩ := List.mem_map.mp hsegment
      have hlevel' := Service.mem_levels_of_level tree hlevel _ hinner
      obtain ⟨cls', hcls', hmade'⟩ := exists_of_forall₂_right h.forall₂_classes.flip _ hlevel'
      have hname : cls'.name = className client.name (path ++ [segment]) := by
        rw [hmade'.name_eq, if_neg (by simp), hmade'.path_eq]
        rfl
      have hfield : ⟨Text.camel segment, cls'.name⟩ ∈ cls.services := by
        rw [hmade.services_eq, hpath, hname]
        exact List.mem_map_of_mem hinner
      have hnames : (client.classes.map ClientClass.name).Nodup :=
        h.nodup_names_iff.mpr (h.nodup_exports_iff.mp hapart.exports).1
      obtain ⟨method, hmethod, hkey⟩ := ih (path ++ [segment]) (List.cons_ne_nil _ _)
        (by rw [hsegments, List.append_assoc]; rfl) hlevel' hcls' hmade'
      refine ⟨method, ?_, hkey⟩
      rw [List.map_cons, List.map_cons, methodBelow?, lookup_of_nodup hservices hfield]
      · rw [Option.bind_eq_bind, Option.bind_some, lookup_of_nodup hnames hcls']
        exact hmethod
      · exact nofun

/-- **Where no names clash**, the members for the segments of a key lead to the method of its
procedure. -/
theorem exists_method (h : client.MadeFor config options definition tree types)
    (hapart : client.NamesApart types) {key : String} {procedure : Procedure}
    (hentry : (key, procedure) ∈ definition.procedures) :
    ∃ method, client.method? ((Procedure.segments key).map Text.camel) = some method ∧
      method.key = key ∧ method.procedure = procedure := by
  have hclasses := h.forall₂_classes
  obtain ⟨children⟩ := tree
  rw [Service.levels] at hclasses
  obtain ⟨root, others, hmade, -, heq⟩ := List.forall₂_cons_left_iff.mp hclasses
  obtain ⟨method, hmethod, hkey⟩ := h.exists_methodBelow hapart hentry (Procedure.segments key) []
    (Procedure.segments_ne_nil key) rfl (Service.root_mem_levels _)
    (heq ▸ List.mem_cons_self) hmade
  refine ⟨method, ?_, hkey⟩
  rw [method?, heq]
  exact hmethod

end Client.MadeFor

/-! ## Names in the text -/

theorem standsIn_opening (start name mark rest : String) :
    StandsIn (start ++ name ++ mark) (start ++ name ++ (mark ++ rest)) :=
  ⟨"", rest, by simp only [String.append_assoc, String.empty_append]⟩

theorem standsIn_after (start name mark rest : String) :
    StandsIn (name ++ mark) (start ++ name ++ (mark ++ rest)) :=
  ⟨start, rest, by simp only [String.append_assoc]⟩

section

variable (config : GeneratorConfig)

/-- The signature of a method stands in its text. -/
theorem ClientMethod.standsIn_text (method : ClientMethod) :
    StandsIn (method.name ++ "(") (method.text config) := by
  refine .append_left ?_ _
  split
  · iterate 13 refine .append_right ?_ _
    exact standsIn_after (config.indentation 1) method.name "(" "hooks: WsHooks<"
  · iterate 9 refine .append_right ?_ _
    exact standsIn_after (config.indentation 1) method.name "(" ""
  · iterate 8 refine .append_right ?_ _
    exact standsIn_after (config.indentation 1 ++ "async ") method.name "(" ""

/-- **The members of a class** are fields and methods in its text. -/
theorem ClientClass.hasMember_of_mem (client : String) {cls : ClientClass} {name : String}
    (h : name ∈ cls.members) : cls.HasMember config client name := by
  have hfield {line : String} (hline : StandsIn (name ++ ": ") line)
      (hmem : line ∈ s!"{config.indentation 1}private readonly options: {optionsType client};" ::
        cls.services.map fun service =>
          s!"{config.indentation 1}readonly {service.name}: {service.className};") :
      cls.HasMember config client name := by
    refine ⟨": ", .head _, ?_⟩
    iterate 6 refine .append_right ?_ _
    exact (hline.trans (.intercalate hmem _)).append_left _
  rcases List.mem_cons.mp h with rfl | h
  · refine hfield ?_ (.head _)
    iterate 2 refine .append_right ?_ _
    exact StandsIn.append_left ⟨"private readonly ", "", rfl⟩ _
  rcases List.mem_append.mp h with h | h
  · obtain ⟨field, hmem, rfl⟩ := List.mem_map.mp h
    refine hfield ?_ (.tail _ (List.mem_map_of_mem hmem))
    iterate 2 refine .append_right ?_ _
    exact standsIn_after (config.indentation 1 ++ "readonly ") field.name ": " ""
  · obtain ⟨method, hmethod, rfl⟩ := List.mem_map.mp h
    exact ⟨"(", .tail _ (.head _),
      (method.standsIn_text config).trans (standsIn_text_of_mem_methods config client hmethod)⟩

/-- The type of the options of a client is exported. -/
theorem Client.exports_optionsType (client : Client) :
    client.Exports config (optionsType client.name) := by
  have hmem : optionsText config client.name ∈
      [banner, importText client.imports, objectTest, optionsText config client.name] ++
        client.classes.map (ClientClass.text config client.name) ++ client.declarations :=
    List.mem_append_left _ (List.mem_append_left _ (.tail _ (.tail _ (.tail _ (.head _)))))
  refine ⟨"export interface ", .head _, .trans ?_ (.append_right (.intercalate hmem _) _)⟩
  iterate 3 refine .append_right ?_ _
  exact standsIn_opening _ _ " " "\x7b\n"

/-- The classes of a client are exported. -/
theorem Client.exports_of_mem_classes {client : Client} {cls : ClientClass}
    (h : cls ∈ client.classes) : client.Exports config cls.name := by
  have hstands : StandsIn (cls.text config client.name) (client.text config) :=
    standsIn_text_of_mem (List.mem_append_left _ (List.mem_map_of_mem h))
  refine ⟨"export class ", .tail _ (.head _), .trans ?_ hstands⟩
  iterate 7 refine .append_right ?_ _
  exact standsIn_opening _ _ " " "\x7b\n"

variable {config}

/-- A type that is declared is exported. -/
theorem Client.exports_of_declares {client : Client} {name : String}
    (h : client.Declares config name) : client.Exports config name := by
  obtain ⟨text, -, ⟨metadata, type, methods, rfl, body, htype⟩, hstands⟩ := h
  have hbefore {part : String} (hpart : StandsIn part type) :
      StandsIn part (client.text config) :=
    .trans (.append_right (.append_right (hpart.append_left _) _) _) hstands
  rcases htype with rfl | rfl
  · refine ⟨"export interface ", .head _, hbefore ?_⟩
    exact .append_right (.append_right (standsIn_opening _ _ " " "\x7b\n") _) _
  · refine ⟨"export type ", .tail _ (.tail _ (.head _)), hbefore ?_⟩
    exact .append_right (.append_right (standsIn_opening _ _ " " "= ") _) _

/-- **The exported names of a client** are those of declarations in its text. -/
theorem Client.MadeFor.exports_of_mem {options : GeneratorOptions} {definition : Definition}
    {tree : Service} {types : List Outline} {client : Client}
    (h : client.MadeFor config options definition tree types) :
    ∀ name ∈ client.exports types, client.Exports config name := by
  intro name hname
  rcases List.mem_cons.mp hname with rfl | hname
  · exact client.exports_optionsType config
  rcases List.mem_append.mp hname with hname | hname
  · obtain ⟨cls, hcls, rfl⟩ := List.mem_map.mp hname
    exact exports_of_mem_classes config hcls
  · obtain ⟨part, hpart, rfl⟩ := List.mem_map.mp hname
    exact exports_of_declares (h.declares hpart)

end

/-! ## Rendered clients -/

/-- **When names clash in a client that has been rendered.** Its exported names and the members of
its classes stand in the file. The exported names are different exactly when services keep different
names and no type is called like a class or like the type of the options, the members exactly when
segments keep different names. Where no names clash, every procedure is reached, and different ones
along different members. -/
theorem namesApart_iff_of_render {config : GeneratorConfig} {options : GeneratorOptions}
    {definition : Definition} {files : List GeneratedFile}
    (h : render config options definition = .ok files) :
    ∃ (result : Client) (tree : Service) (types : List Outline),
      result.MadeFor config options definition tree types ∧
      files = [⟨options.outputFile, result.text config⟩] ∧
      (∀ name ∈ result.exports types, result.Exports config name) ∧
      (∀ cls ∈ result.classes, ∀ name ∈ cls.members, cls.HasMember config result.name name) ∧
      ((result.exports types).Nodup ↔ ServicesApart definition.procedures ∧
        ∀ part ∈ Outline.declaredIn types,
          part.typeName ∉ optionsType result.name :: result.classes.map ClientClass.name) ∧
      ((∀ cls ∈ result.classes, cls.members.Nodup) ↔ MembersApart definition.procedures) ∧
      (result.NamesApart types →
        (∀ entry ∈ definition.procedures, ∃ method,
          result.method? ((Procedure.segments entry.1).map Text.camel) = some method ∧
            method.key = entry.1 ∧ method.procedure = entry.2) ∧
        (definition.procedures.map fun entry =>
          (Procedure.segments entry.1).map Text.camel).Nodup) := by
  obtain ⟨result, tree, types, hmade, hfiles⟩ := render_eq_ok_iff.mp h
  refine ⟨result, tree, types, hmade, hfiles, hmade.exports_of_mem,
    fun cls _ name hname => cls.hasMember_of_mem config result.name hname,
    hmade.nodup_exports_iff, hmade.nodup_members_iff,
    fun hapart => ⟨fun entry hentry => hmade.exists_method hapart hentry, ?_⟩⟩
  have hkeys : (Entries.keys definition.procedures).Nodup :=
    (Service.distinct_of_ofProcedures hmade.tree_ok).1
  have hmap : (definition.procedures.map fun entry =>
      (Procedure.segments entry.1).map Text.camel) =
      (Entries.keys definition.procedures).map fun key =>
        (Procedure.segments key).map Text.camel := by
    rw [Entries.keys, List.map_map]
    rfl
  rw [hmap, List.nodup_map_iff_inj_on hkeys]
  -- The method at the end of the way knows the key.
  intro key hkey key' hkey' hsame
  obtain ⟨entry, hentry, rfl⟩ := List.mem_map.mp hkey
  obtain ⟨entry', hentry', rfl⟩ := List.mem_map.mp hkey'
  obtain ⟨method, hmethod, hname, -⟩ := hmade.exists_method hapart hentry
  obtain ⟨method', hmethod', hname', -⟩ := hmade.exists_method hapart hentry'
  rw [hsame, hmethod'] at hmethod
  obtain rfl := Option.some.inj hmethod
  rw [← hname, ← hname']

/-- The case of a service with a procedure that is called like it. -/
theorem namesApart_iff_of_render_one_service :
    let definition := (Definition.ofErrors (Schema.object.withId "Fault")).withProcedure "a.a"
      { path := "/a/a", method := .get }
    let options : GeneratorOptions := ⟨"a", "client.ts"⟩
    ∃ files result types, render {} options definition = .ok files ∧
      Client.NamesApart types result ∧ result.Exports {} "Fault" ∧
      ∃ method, result.method? ["a", "a"] = some method ∧ method.key = "a.a" := by
  intro definition options
  have hready : definition.Ready :=
    { models := nofun
      errors := ⟨⟨trivial, trivial⟩, nofun⟩
      procedures := List.forall_mem_singleton.mpr ⟨nofun, nofun⟩
      check := rfl
      tree := ⟨_, rfl⟩ }
  have hoptions : options.check generatorId = .ok () :=
    GeneratorOptions.check_eq_ok_iff.mpr ⟨by decide +kernel, by decide⟩
  have hsegments : ∀ key ∈ Entries.keys definition.procedures,
      Procedure.segments key = ["a", "a"] := by decide
  have hcamel : Text.camel "a" = "a" := by decide +kernel
  obtain ⟨contents, hrender⟩ :=
    @Definition.Ready.exists_render_of_not_strict _ hready {} options rfl hoptions
      (List.cons_ne_nil _ _)
  obtain ⟨result, tree, types, hmade, -, hexports, -, hnames, hmembers, hways⟩ :=
    namesApart_iff_of_render hrender
  have hname : result.name = "A" := by
    rw [hmade.name_eq]
    decide +kernel
  have htypes : (Outline.declaredIn types).map Outline.typeName = ["Fault"] := by
    obtain ⟨final, htypes⟩ := hmade.types_ok
    rw [← Except.ok.inj (congrArg Prod.fst htypes)]
    rfl
  have hservices : ServicesApart definition.procedures := by
    have hone {path : List String} (hpath : path ≠ []) (hkey : ∃ key ∈
        Entries.keys definition.procedures, ProperPrefix path (Procedure.segments key)) :
        path = ["a"] := by
      obtain ⟨key, hkey, hproper⟩ := hkey
      rw [hsegments key hkey] at hproper
      obtain ⟨segment, path, rfl⟩ := List.exists_cons_of_ne_nil hpath
      obtain ⟨rfl, hrest⟩ := properPrefix_cons_iff.mp hproper
      cases path with
      | nil => rfl
      | cons _ path => exact absurd (properPrefix_cons_iff.mp hrest).2 not_properPrefix_nil
    intro path path' hpath hpath' hkey hkey' _
    rw [hone hpath hkey, hone hpath' hkey']
  have hapart : MembersApart definition.procedures := by
    have hone {path : List String} {segment : String} (hkey : ∃ key ∈
        Entries.keys definition.procedures, path ++ [segment] <+: Procedure.segments key) :
        segment = "a" := by
      obtain ⟨key, hkey, hprefix⟩ := hkey
      rw [hsegments key hkey] at hprefix
      have hmem : segment ∈ ["a", "a"] := hprefix.subset (by simp)
      simpa using hmem
    intro path segment hkey
    refine ⟨?_, fun other hother _ => (hone hkey).trans (hone hother).symm⟩
    rw [hone hkey, hcamel]
    decide
  have hnamesApart : result.NamesApart types := by
    refine ⟨hnames.mpr ⟨hservices, fun part hpart => ?_⟩, hmembers.mpr hapart⟩
    have hpartName := List.mem_map_of_mem (f := Outline.typeName) hpart
    rw [htypes, List.mem_singleton] at hpartName
    rw [hpartName, hmade.map_name_eq, hname, List.mem_cons, List.mem_map]
    rintro (heq | ⟨path, -, heq⟩)
    · exact absurd heq (by decide)
    · split_ifs at heq
      · exact absurd heq (by decide)
      · have hlast := congrArg (fun name => name.toList.getLast?) heq
        rw [getLast?_className] at hlast
        exact absurd hlast (by decide)
  obtain ⟨method, hmethod, hkey, -⟩ := (hways hnamesApart).1 _ (.head _)
  refine ⟨_, result, types, hrender, hnamesApart, hexports _ ?_, method, ?_, hkey⟩
  · rw [Client.exports, htypes]
    exact List.mem_cons_of_mem _ (List.mem_append_right _ (.head _))
  · rwa [hsegments _ (.head _), List.map_cons, List.map_singleton, hcamel] at hmethod

/-- Services that are told apart by case only get classes of one name, and fields of one name. -/
theorem not_namesApart_of_render_cased_services :
    let definition := ((Definition.ofErrors .object).withProcedure "a.x"
      { path := "/a/x", method := .get }).withProcedure "A.x" { path := "/A/x", method := .get }
    let options : GeneratorOptions := ⟨"App", "client.ts"⟩
    ∃ (files : List GeneratedFile) (result : Client) (tree : Service) (types : List Outline),
      render {} options definition = .ok files ∧
      result.MadeFor {} options definition tree types ∧
      files = [⟨options.outputFile, result.text {}⟩] ∧
      ¬ (result.exports types).Nodup ∧ ∃ cls ∈ result.classes, ¬ cls.members.Nodup := by
  intro definition options
  have hready : definition.Ready :=
    { models := nofun
      errors := ⟨⟨trivial, trivial⟩, nofun⟩
      procedures := List.forall_mem_cons.mpr
        ⟨⟨nofun, nofun⟩, List.forall_mem_singleton.mpr ⟨nofun, nofun⟩⟩
      check := rfl
      tree := ⟨_, rfl⟩ }
  have hoptions : options.check generatorId = .ok () :=
    GeneratorOptions.check_eq_ok_iff.mpr ⟨by decide +kernel, by decide⟩
  obtain ⟨contents, hrender⟩ :=
    @Definition.Ready.exists_render_of_not_strict _ hready {} options rfl hoptions
      (List.cons_ne_nil _ _)
  obtain ⟨result, tree, types, hmade, hfiles⟩ := render_eq_ok_iff.mp hrender
  refine ⟨_, result, tree, types, hrender, hmade, hfiles, fun hnodup => ?_, ?_⟩
  · have hservices := (hmade.nodup_exports_iff.mp hnodup).1
    have hsame : Naming.pascalPath "A" = Naming.pascalPath "a" := by decide +kernel
    have heq := hservices ["A"] ["a"] (by decide) (by decide) (by decide) (by decide) hsame
    exact absurd heq (by decide)
  · by_contra hall
    have hmembers := hmade.nodup_members_iff.mp fun cls hcls => by
      by_contra hcls'
      exact hall ⟨cls, hcls, hcls'⟩
    have hsame : Text.camel "A" = Text.camel "a" := by decide +kernel
    have heq := (hmembers [] "A" (by decide)).2 "a" (by decide) hsame
    exact absurd heq (by decide)

end RpcSchema.TypeScript
