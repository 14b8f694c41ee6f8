import Mathlib.Data.List.Forall2
import RpcSchema.Codegen.TypeScript.Client
import RpcSchema.Proofs.Outcome

set_option autoImplicit false

/-!
# What a client is made of

A client that has been rendered comes from a definition that passes its check, from the tree of its
procedures and from the outlines of its types. Its text is put together from sections, and what
stands in one of these stands in the text.

## Main definitions

* `RpcSchema.StandsIn` — a text stands inside another.
* `RpcSchema.TypeScript.Client.MadeFor` — what a client is made of.

## Main results

* `RpcSchema.TypeScript.render_eq_ok_iff` — the file of a definition holds the client made for it.
* `RpcSchema.TypeScript.Client.standsIn_text_of_mem` — the classes and declarations stand in the text.
-/

namespace RpcSchema

open Outcome (bind_eq_ok_iff mapError_eq_ok_iff)

/-! ## Texts inside texts -/

/-- **A text stands inside another.** -/
def StandsIn (part text : String) : Prop := ∃ before after, text = before ++ part ++ after

namespace StandsIn

variable {part text text' : String}

theorem refl (text : String) : StandsIn text text := ⟨"", "", by simp⟩

theorem append_right (h : StandsIn part text) (text' : String) : StandsIn part (text ++ text') := by
  obtain ⟨before, after, rfl⟩ := h
  exact ⟨before, after ++ text', by simp only [String.append_assoc]⟩

theorem append_left (h : StandsIn part text) (text' : String) : StandsIn part (text' ++ text) := by
  obtain ⟨before, after, rfl⟩ := h
  exact ⟨text' ++ before, after, by simp only [String.append_assoc]⟩

theorem trans (h : StandsIn part text) (h' : StandsIn text text') : StandsIn part text' := by
  obtain ⟨before, after, rfl⟩ := h'
  exact (h.append_left before).append_right after

/-- The members of a list stand in the list with a text between them. -/
theorem intercalate {texts : List String} (h : text ∈ texts) (between : String) :
    StandsIn text (between.intercalate texts) := by
  induction texts with
  | nil => cases h
  | cons first rest ih =>
    rcases rest with _ | ⟨second, rest⟩
    · rw [List.mem_singleton.mp h, String.intercalate_singleton]
      exact refl first
    · rw [String.intercalate_cons_cons]
      rcases List.mem_cons.mp h with rfl | h
      · exact ((refl text).append_right _).append_right _
      · exact (ih h).append_left _

/-- The members of a list stand in the list put together. -/
theorem join {texts : List String} (h : text ∈ texts) : StandsIn text (String.join texts) := by
  induction texts with
  | nil => cases h
  | cons first rest ih =>
    rw [String.join_cons]
    rcases List.mem_cons.mp h with rfl | h
    · exact (refl text).append_right _
    · exact (ih h).append_left _

end StandsIn

/-! ## Options -/

/-- **Options pass the check** when the name is not blank and there is a path. -/
theorem GeneratorOptions.check_eq_ok_iff {options : GeneratorOptions} {generator : String} :
    options.check generator = .ok () ↔
      Text.trim options.clientName.toList ≠ [] ∧ options.outputFile ≠ "" := by
  rw [check, ne_eq, ← List.isEmpty_iff]
  split_ifs with hname hfile
  · exact iff_of_false nofun fun h => h.1 hname
  · exact iff_of_false nofun fun h => h.2 hfile
  · exact iff_of_true rfl ⟨hname, hfile⟩

namespace TypeScript

/-! ## The parts of a client -/

/-- **A client is made for a definition** that has procedures and passes its check, from the tree of
its procedures and from the outlines of its models and errors. -/
structure Client.MadeFor (config : GeneratorConfig) (options : GeneratorOptions)
    (definition : Definition) (tree : Service) (types : List Outline) (client : Client) :
    Prop where
  options_ok : options.check generatorId = .ok ()
  procedures_ne_nil : definition.procedures ≠ []
  check_ok : definition.check = .ok ()
  tree_ok : Service.ofProcedures definition.procedures = .ok tree
  types_ok : ∃ final, (typeOutlines ((backend config).scheme definition.models) definition
    client.name).run { registry := (backend config).registry } = (.ok types, final)
  classes_ok : serviceClasses ((backend config).scheme definition.models) client.name client.name []
    tree = .ok client.classes
  name_eq : client.name = Naming.pascalPath options.clientName
  imports_eq : client.imports = runtimeImports (Entries.values definition.procedures)
  declarations_eq : client.declarations =
    types.flatMap fun outline => (outline.render (backend config)).declarations

variable {config : GeneratorConfig} {options : GeneratorOptions} {definition : Definition}

/-- **The client for a definition** is one that is made for it, and it is the only one. -/
theorem client_eq_ok_iff {result : Client} :
    client config options definition = .ok result ↔
      ∃ tree types, result.MadeFor config options definition tree types := by
  unfold client
  constructor
  · intro h
    obtain ⟨⟨⟩, hoptions, h⟩ := bind_eq_ok_iff.mp h
    split at h
    · obtain ⟨_, h, -⟩ := bind_eq_ok_iff.mp h
      cases h
    · rename_i hprocedures
      obtain ⟨⟨⟩, hcheck, h⟩ := bind_eq_ok_iff.mp h
      obtain ⟨tree, htree, h⟩ := bind_eq_ok_iff.mp h
      obtain ⟨types, htypes, h⟩ := bind_eq_ok_iff.mp h
      obtain ⟨classes, hclasses, h⟩ := bind_eq_ok_iff.mp h
      cases h
      exact ⟨tree, types,
        { options_ok := hoptions
          procedures_ne_nil := by simpa using hprocedures
          check_ok := mapError_eq_ok_iff.mp hcheck
          tree_ok := mapError_eq_ok_iff.mp (mapError_eq_ok_iff.mp htree)
          types_ok := ⟨_, Prod.ext htypes rfl⟩
          classes_ok := hclasses
          name_eq := rfl
          imports_eq := rfl
          declarations_eq := rfl }⟩
  · rintro ⟨tree, types, h⟩
    obtain ⟨final, htypes⟩ := h.types_ok
    have hclasses := h.classes_ok
    have hsome : definition.procedures.isEmpty = false := by simpa using h.procedures_ne_nil
    have htree : definition.serviceTree = .ok tree := by
      rw [Definition.serviceTree, h.tree_ok]
      rfl
    obtain ⟨name, imports, classes, declarations⟩ := result
    obtain rfl : name = _ := h.name_eq
    obtain rfl : imports = _ := h.imports_eq
    obtain rfl : declarations = _ := h.declarations_eq
    refine bind_eq_ok_iff.mpr ⟨(), h.options_ok, ?_⟩
    rw [hsome]
    refine bind_eq_ok_iff.mpr ⟨(), by rw [h.check_ok]; rfl, ?_⟩
    refine bind_eq_ok_iff.mpr ⟨tree, by rw [htree]; rfl, ?_⟩
    refine bind_eq_ok_iff.mpr ⟨types, congrArg Prod.fst htypes, ?_⟩
    exact bind_eq_ok_iff.mpr ⟨classes, hclasses, rfl⟩

/-- **The file of a definition** holds the client that is made for it. -/
theorem render_eq_ok_iff {files : List GeneratedFile} :
    render config options definition = .ok files ↔
      ∃ (client : Client) (tree : Service) (types : List Outline),
        client.MadeFor config options definition tree types ∧
          files = [⟨options.outputFile, client.text config⟩] := by
  unfold render
  rw [bind_eq_ok_iff]
  constructor
  · rintro ⟨result, hresult, h⟩
    cases h
    obtain ⟨tree, types, hmade⟩ := client_eq_ok_iff.mp hresult
    exact ⟨result, tree, types, hmade, rfl⟩
  · rintro ⟨result, tree, types, hmade, rfl⟩
    exact ⟨result, client_eq_ok_iff.mpr ⟨tree, types, hmade⟩, rfl⟩

/-! ## The sections of a text -/

namespace Client

/-- **The classes and the declarations of a client** stand in its text. -/
theorem standsIn_text_of_mem {client : Client} {text : String}
    (h : text ∈ client.classes.map (ClientClass.text config client.name) ++
      client.declarations) : StandsIn text (client.text config) := by
  refine (StandsIn.intercalate ?_ _).append_right _
  rw [List.append_assoc]
  exact List.mem_append_right _ h

end Client

end TypeScript

end RpcSchema
