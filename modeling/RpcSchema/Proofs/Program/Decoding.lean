import RpcSchema.Proofs.Program.Matching
import RpcSchema.Proofs.Report
import RpcSchema.Proofs.Scalar
import RpcSchema.Validator.Decode

set_option autoImplicit false

/-!
# When decoding gives a value

One equivalence for each form of a node: what the document has to look like, what the parts have to
decode to, and what value is made of them. The way in which references are followed is left open,
but for that its reports are proper.

## Main definitions

* `RpcSchema.Program.FollowsProperly` — following a reference gives proper reports.
* `RpcSchema.Program.Node.Decodes` — a node decodes a document to a value.

## Main results

* `RpcSchema.Program.Shape.decode_eq_ok_iff` — decoding along a shape.
* `RpcSchema.Program.Kind.decode_object_iff`, `RpcSchema.Program.Kind.decode_array_iff`,
  `RpcSchema.Program.Kind.decode_record_iff`, `RpcSchema.Program.Kind.decode_union_iff` — decoding
  along the forms with parts.
* `RpcSchema.Program.Node.decode_eq_ok_iff` — decoding along a node, which `null` may answer.
-/

namespace RpcSchema.Program

variable {reading : Reading} {follow : Nat → Json → Walk (Report Value)}

/-! ## Scalars and enumerations -/

/-- A scalar that is decoded is of the kind; neither it nor its document is `null`. -/
theorem decodeScalar_eq_ok {kind : ScalarKind} {input : Json} {value : Value}
    (h : decodeScalar reading kind input = .ok value) :
    kind.holds value = true ∧ input.isNull = false := by
  unfold decodeScalar at h
  split at h
  · rename_i hread
    cases h
    refine ⟨ScalarKind.holds_of_read hread, ?_⟩
    cases input <;> first | rfl | cases hread
  · cases h
  · split at h
    · rename_i hconverting
      split at h
      · cases h
        exact ⟨ScalarKind.holds_of_convert? ‹_›, hconverting.2⟩
      · cases h
    · split at h <;> cases h

/-- A scalar is given, or there is one error. -/
theorem decodeScalar_exact (kind : ScalarKind) (input : Json) :
    (decodeScalar reading kind input).Exact := by
  unfold decodeScalar
  split
  · exact Report.exact_ok _
  · exact Report.exact_fail _ _ _
  · split
    · split
      · exact Report.exact_ok _
      · exact Report.exact_fail _ _ _
    · split <;> exact Report.exact_fail _ _ _

theorem decodeScalar_proper (kind : ScalarKind) (input : Json) :
    (decodeScalar reading kind input).Proper :=
  (decodeScalar_exact kind input).proper

/-- One of a list of texts is decoded as it is. -/
theorem decodeListed_eq_ok_iff {values : List String} {input : Json} {value : Value} :
    decodeListed values input = .ok value ↔
      ∃ text, input = .string text ∧ values.contains text = true ∧ value = .string text := by
  cases input with
  | string text =>
    simp only [decodeListed, Json.string.injEq, exists_eq_left']
    split
    · rename_i h
      rw [Report.ok_inj, eq_comm]
      exact (and_iff_right h).symm
    · rename_i h
      exact ⟨fun hfail => absurd hfail Report.fail_ne_ok, fun hmem => absurd hmem.1 h⟩
  | _ => simp [decodeListed]

/-- One of a list of texts is given, or there is one error. -/
theorem decodeListed_exact (values : List String) (input : Json) :
    (decodeListed values input).Exact := by
  unfold decodeListed
  split
  · split
    · exact Report.exact_ok _
    · exact Report.exact_fail _ _ _
  · exact Report.exact_fail _ _ _

theorem decodeListed_proper (values : List String) (input : Json) :
    (decodeListed values input).Proper :=
  (decodeListed_exact values input).proper

/-! ## Proper reports -/

/-- **Following a reference gives proper reports**. -/
def FollowsProperly (follow : Nat → Json → Walk (Report Value)) : Prop :=
  ∀ index input report, follow index input = some report → report.Proper

/-- Decoding along a shape gives a report on a whole, or that there is no object. -/
theorem Shape.decode_proper {shape : Shape} {tag : Option String} {input : Json}
    {report : Report (Entries Value)} (h : shape.decode reading follow tag input = some report) :
    report.Proper := by
  obtain ⟨required, optional, strict⟩ := shape
  cases input with
  | object entries =>
    simp only [Shape.decode, Option.bind_eq_bind, Option.bind_eq_some_iff, Option.pure_def,
      Option.some.injEq] at h
    obtain ⟨present, -, further, -, rfl⟩ := h
    exact (Report.proper_gather _).map _
  | _ =>
    cases h
    exact Report.proper_fail _ _ _

/-- A variant is decoded along the shape that has its name. -/
theorem decodeVariant_eq_lookup {tag name : String} {input : Json} :
    ∀ {variants : List (String × Shape)},
      decodeVariant reading follow tag name variants input =
        match variants.lookup name with
        | some shape => (shape.decode reading follow (some tag) input).map fun fields =>
          some ((fields.under [] ["mapping", name]).map (.variant name))
        | none => some none
  | [] => rfl
  | (other, shape) :: rest => by
    rw [decodeVariant, Entries.lookup_cons_ite]
    by_cases hname : name = other
    · subst hname
      rw [if_pos BEq.rfl, if_pos rfl]
      exact Option.map_eq_bind.symm
    · rw [if_neg (by simpa using Ne.symm hname), if_neg hname]
      exact decodeVariant_eq_lookup

theorem decodeVariant_proper {tag name : String} {variants : List (String × Shape)} {input : Json}
    {report : Report Value}
    (h : decodeVariant reading follow tag name variants input = some (some report)) :
    report.Proper := by
  rw [decodeVariant_eq_lookup] at h
  split at h
  · obtain ⟨fields, hfields, hreport⟩ := Option.map_eq_some_iff.mp h
    rw [← Option.some.inj hreport]
    exact ((Shape.decode_proper hfields).under _ _).map _
  · cases h

/-- **Decoding gives proper reports** along every node. -/
theorem Node.decode_proper (hfollow : FollowsProperly follow) {node : Node} {input : Json}
    {report : Report Value} (h : node.decode reading follow input = some report) :
    report.Proper := by
  obtain ⟨kind, nullable⟩ := node
  simp only [Node.decode] at h
  split at h
  · cases h
    exact Report.proper_ok _
  · cases kind with
    | scalar kind =>
      cases h
      exact decodeScalar_proper kind input
    | enumeration values =>
      cases h
      exact decodeListed_proper values input
    | object shape =>
      simp only [Kind.decode, Option.bind_eq_bind, Option.bind_eq_some_iff, Option.pure_def,
        Option.some.injEq] at h
      obtain ⟨fields, hfields, rfl⟩ := h
      exact (Shape.decode_proper hfields).map _
    | array element =>
      cases input with
      | array items =>
        simp only [Kind.decode, Option.bind_eq_bind, Option.bind_eq_some_iff, Option.pure_def,
          Option.some.injEq] at h
        obtain ⟨reports, -, rfl⟩ := h
        exact (Report.proper_gather _).map _
      | _ =>
        cases h
        exact Report.proper_fail _ _ _
    | record value =>
      cases input with
      | object entries =>
        simp only [Kind.decode, Option.bind_eq_bind, Option.bind_eq_some_iff, Option.pure_def,
          Option.some.injEq] at h
        obtain ⟨reports, -, rfl⟩ := h
        exact (Report.proper_gather _).map _
      | _ =>
        cases h
        exact Report.proper_fail _ _ _
    | union tag variants =>
      cases input with
      | object entries =>
        simp only [Kind.decode] at h
        split at h
        · simp only [Option.bind_eq_bind, Option.bind_eq_some_iff] at h
          obtain ⟨outcome, houtcome, h⟩ := h
          cases outcome with
          | none =>
            cases h
            exact Report.proper_fail _ _ _
          | some decoded =>
            cases h
            exact decodeVariant_proper houtcome
        · cases h
          exact Report.proper_fail _ _ _
        · cases h
          exact Report.proper_fail _ _ _
      | _ =>
        cases h
        exact Report.proper_fail _ _ _
    | ref index => exact hfollow index input report h

/-! ## Objects -/

/-- **A node decodes a document to a value.** -/
abbrev Node.Decodes (reading : Reading) (follow : Nat → Json → Walk (Report Value)) (node : Node)
    (input : Json) (value : Value) : Prop :=
  node.decode reading follow input = some (.ok value)

theorem decodeRequired_eq_ok_iff {entries : Entries Json} :
    ∀ {properties : List (String × Node)} {pairs : List (String × Value)},
      decodeRequired reading follow entries properties = some (pairs.map .ok) ↔
        Matched (Node.Decodes reading follow) entries properties pairs
  | [], pairs => by
    rw [Matched.nil_left_iff, decodeRequired, Option.some.injEq, eq_comm, List.map_eq_nil_iff]
  | (key, node) :: rest, pairs => by
    rw [Matched.cons_left_iff]
    cases hkey : entries.lookup key with
    | none =>
      simp only [decodeRequired, hkey, Option.bind_eq_bind, Option.bind_some,
        Option.bind_eq_some_iff, Option.pure_def, Option.some.injEq, reduceCtorEq, false_and,
        exists_const, iff_false, not_exists, not_and]
      rintro reports - hpairs
      obtain ⟨pair, pairs, rfl, hfirst, rfl⟩ := List.map_eq_cons_iff.mp hpairs.symm
      exact Report.fail_ne_ok hfirst.symm
    | some item =>
      simp only [decodeRequired, hkey, Option.bind_eq_bind, Option.bind_some,
        Option.bind_eq_some_iff, Option.pure_def, Option.some.injEq]
      constructor
      · rintro ⟨report, hreport, reports, hreports, hpairs⟩
        obtain ⟨pair, pairs, rfl, hfirst, rfl⟩ := List.map_eq_cons_iff.mp hpairs.symm
        obtain ⟨value, hvalue, rfl⟩ := Report.map_eq_ok_iff.mp hfirst.symm
        rw [Report.under_eq_ok_iff] at hvalue
        subst hvalue
        exact ⟨item, value, pairs, rfl, hreport, decodeRequired_eq_ok_iff.mp hreports, rfl⟩
      · rintro ⟨item', value, pairs, rfl, hvalue, hpairs, rfl⟩
        exact ⟨_, hvalue, pairs.map .ok, decodeRequired_eq_ok_iff.mpr hpairs, rfl⟩

theorem decodeOptional_eq_ok_iff {entries : Entries Json} :
    ∀ {properties : List (String × Node)} {pairs : List (String × Value)},
      decodeOptional reading follow entries properties = some (pairs.map .ok) ↔
        Matched (Node.Decodes reading follow) entries
          (properties.filter fun property => Entries.contains entries property.1) pairs
  | [], pairs => by
    rw [List.filter_nil, Matched.nil_left_iff, decodeOptional, Option.some.injEq, eq_comm,
      List.map_eq_nil_iff]
  | (key, node) :: rest, pairs => by
    cases hkey : entries.lookup key with
    | none =>
      have hcontains : ¬ Entries.contains entries key = true := by
        rw [Entries.contains_eq_true_iff]
        exact Entries.lookup_eq_none_iff.mp hkey
      rw [List.filter_cons, if_neg hcontains, ← decodeOptional_eq_ok_iff]
      simp only [decodeOptional, hkey]
    | some item =>
      have hcontains : Entries.contains entries key = true := by
        rw [Entries.contains_eq_true_iff]
        exact Entries.mem_keys_of_mem (Entries.mem_of_lookup hkey)
      rw [List.filter_cons, if_pos hcontains, Matched.cons_left_iff]
      simp only [decodeOptional, hkey, Option.bind_eq_bind, Option.bind_eq_some_iff,
        Option.pure_def, Option.some.injEq]
      constructor
      · rintro ⟨report, hreport, reports, hreports, hpairs⟩
        obtain ⟨pair, pairs, rfl, hfirst, rfl⟩ := List.map_eq_cons_iff.mp hpairs.symm
        obtain ⟨value, hvalue, rfl⟩ := Report.map_eq_ok_iff.mp hfirst.symm
        rw [Report.under_eq_ok_iff] at hvalue
        subst hvalue
        exact ⟨item, value, pairs, rfl, hreport, decodeOptional_eq_ok_iff.mp hreports, rfl⟩
      · rintro ⟨item', value, pairs, rfl, hvalue, hpairs, rfl⟩
        exact ⟨_, hvalue, pairs.map .ok, decodeOptional_eq_ok_iff.mpr hpairs, rfl⟩

theorem decodeRequired_proper (hfollow : FollowsProperly follow) {entries : Entries Json} :
    ∀ {properties : List (String × Node)} {reports : List (Report (String × Value))},
      decodeRequired reading follow entries properties = some reports →
        ∀ report ∈ reports, report.Proper
  | [], _, h => by
    cases h
    simp
  | (key, node) :: rest, reports, h => by
    cases hkey : entries.lookup key with
    | none =>
      simp only [decodeRequired, hkey, Option.bind_eq_bind, Option.bind_some,
        Option.bind_eq_some_iff, Option.pure_def, Option.some.injEq] at h
      obtain ⟨others, hothers, rfl⟩ := h
      refine List.forall_mem_cons.mpr ⟨?_, decodeRequired_proper hfollow hothers⟩
      exact Report.proper_fail _ _ _
    | some item =>
      simp only [decodeRequired, hkey, Option.bind_eq_bind, Option.bind_some,
        Option.bind_eq_some_iff, Option.pure_def, Option.some.injEq] at h
      obtain ⟨first, hfirst, others, hothers, rfl⟩ := h
      refine List.forall_mem_cons.mpr ⟨?_, decodeRequired_proper hfollow hothers⟩
      exact ((Node.decode_proper hfollow hfirst).under _ _).map _

theorem decodeOptional_proper (hfollow : FollowsProperly follow) {entries : Entries Json} :
    ∀ {properties : List (String × Node)} {reports : List (Report (String × Value))},
      decodeOptional reading follow entries properties = some reports →
        ∀ report ∈ reports, report.Proper
  | [], _, h => by
    cases h
    simp
  | (key, node) :: rest, reports, h => by
    cases hkey : entries.lookup key with
    | none =>
      simp only [decodeOptional, hkey] at h
      exact decodeOptional_proper hfollow h
    | some item =>
      simp only [decodeOptional, hkey, Option.bind_eq_bind, Option.bind_eq_some_iff,
        Option.pure_def, Option.some.injEq] at h
      obtain ⟨first, hfirst, others, hothers, rfl⟩ := h
      refine List.forall_mem_cons.mpr ⟨?_, decodeOptional_proper hfollow hothers⟩
      exact ((Node.decode_proper hfollow hfirst).under _ _).map _

/-- Every report on a key that a shape does not have is a failure. -/
theorem mem_undeclaredReports {shape : Shape} {tag : Option String} {entries : Entries Json}
    {report : Report (String × Value)} (h : report ∈ undeclaredReports shape tag entries) :
    ∃ key, report = .fail [key] [] (.undeclared key) := by
  unfold undeclaredReports at h
  split at h
  · obtain ⟨⟨key, item⟩, -, hreport⟩ := List.mem_filterMap.mp h
    simp only [Option.ite_none_left_eq_some, Option.some.injEq] at hreport
    exact ⟨key, hreport.2.symm⟩
  · simp at h

theorem undeclaredReports_eq_nil_iff {shape : Shape} {tag : Option String}
    {entries : Entries Json} :
    undeclaredReports shape tag entries = [] ↔ shape.Admits tag (Entries.keys entries) := by
  unfold undeclaredReports Shape.Admits
  split
  · rename_i hstrict
    simp only [List.filterMap_eq_nil_iff, Entries.keys, List.mem_map, Prod.exists, exists_and_right,
      exists_eq_right, hstrict, forall_const, forall_exists_index, Prod.forall,
      ite_eq_left_iff, reduceCtorEq, imp_false, Bool.or_eq_true, decide_eq_true_eq, not_not]
  · rename_i hstrict
    simp [hstrict]

/-- **Decoding along a shape** gives the map made from what is decoded along the properties that
are present, when no key is refused.

**Proof sketch.** All reports are proper, so nothing is wrong exactly when each of them gives
something (`Report.gather_eq_ok_iff`); the reports on undeclared keys never do. -/
theorem Shape.decode_eq_ok_iff (hfollow : FollowsProperly follow) {shape : Shape}
    {tag : Option String} {input : Json} {fields : Entries Value} :
    shape.decode reading follow tag input = some (.ok fields) ↔
      ∃ entries pairs, input = .object entries ∧ shape.Admits tag (Entries.keys entries) ∧
        Matched (Node.Decodes reading follow) entries (shape.presentIn entries) pairs ∧
        fields = Entries.ofList pairs := by
  obtain ⟨required, optional, strict⟩ := shape
  cases input with
  | object entries =>
    simp only [Shape.decode, Option.bind_eq_bind, Option.bind_eq_some_iff, Option.pure_def,
      Option.some.injEq, Json.object.injEq, exists_and_left, exists_eq_left']
    constructor
    · rintro ⟨present, hpresent, further, hfurther, hfields⟩
      obtain ⟨pairs, hpairs, rfl⟩ := Report.map_eq_ok_iff.mp hfields
      have hproper : ∀ report ∈ present ++ further ++
          undeclaredReports ⟨required, optional, strict⟩ tag entries, report.Proper := by
        intro report hreport
        rcases List.mem_append.mp hreport with hreport | hreport
        · rcases List.mem_append.mp hreport with hreport | hreport
          · exact decodeRequired_proper hfollow hpresent report hreport
          · exact decodeOptional_proper hfollow hfurther report hreport
        · obtain ⟨key, rfl⟩ := mem_undeclaredReports hreport
          exact Report.proper_fail _ _ _
      rw [Report.gather_eq_ok_iff hproper] at hpairs
      have hundeclared : undeclaredReports ⟨required, optional, strict⟩ tag entries = [] := by
        refine List.eq_nil_iff_forall_not_mem.mpr fun report hreport => ?_
        have hok : report ∈ pairs.map Report.ok := hpairs ▸ List.mem_append_right _ hreport
        obtain ⟨pair, -, rfl⟩ := List.mem_map.mp hok
        obtain ⟨key, hkey⟩ := mem_undeclaredReports hreport
        exact Report.fail_ne_ok hkey.symm
      rw [hundeclared, List.append_nil] at hpairs
      obtain ⟨pairs₁, pairs₂, rfl, rfl, rfl⟩ := List.append_eq_map_iff.mp hpairs
      refine ⟨undeclaredReports_eq_nil_iff.mp hundeclared, pairs₁ ++ pairs₂, ?_, rfl⟩
      exact List.rel_append (decodeRequired_eq_ok_iff.mp hpresent)
        (decodeOptional_eq_ok_iff.mp hfurther)
    · rintro ⟨hadmits, pairs, hpairs, rfl⟩
      obtain ⟨pairs₁, pairs₂, h₁, h₂, rfl⟩ := Matched.append_left_iff.mp hpairs
      refine ⟨pairs₁.map .ok, decodeRequired_eq_ok_iff.mpr h₁, pairs₂.map .ok,
        decodeOptional_eq_ok_iff.mpr h₂, ?_⟩
      rw [undeclaredReports_eq_nil_iff.mpr hadmits, List.append_nil, ← List.map_append,
        (Report.gather_eq_ok_iff _).mpr rfl]
      · rfl
      · intro report hreport
        obtain ⟨pair, -, rfl⟩ := List.mem_map.mp hreport
        exact Report.proper_ok pair
  | _ => simp [Shape.decode]

/-! ## The forms with parts -/

theorem Kind.decode_object_iff {shape : Shape} {input : Json} {value : Value} :
    Kind.decode reading follow (.object shape) input = some (.ok value) ↔
      ∃ fields, shape.decode reading follow none input = some (.ok fields) ∧
        value = .object fields := by
  simp only [Kind.decode, Option.bind_eq_bind, Option.bind_eq_some_iff, Option.pure_def,
    Option.some.injEq]
  constructor
  · rintro ⟨report, hreport, hvalue⟩
    obtain ⟨fields, rfl, rfl⟩ := Report.map_eq_ok_iff.mp hvalue
    exact ⟨fields, hreport, rfl⟩
  · rintro ⟨fields, hfields, rfl⟩
    exact ⟨_, hfields, rfl⟩

theorem Kind.decode_array_iff (hfollow : FollowsProperly follow) {element : Node} {input : Json}
    {value : Value} :
    Kind.decode reading follow (.array element) input = some (.ok value) ↔
      ∃ items values, input = .array items ∧
        List.Forall₂ (element.Decodes reading follow) items values ∧ value = .array values := by
  cases input with
  | array items =>
    simp only [Kind.decode, Option.bind_eq_bind, Option.bind_eq_some_iff, Option.pure_def,
      Option.some.injEq, Report.map_eq_ok_iff, Json.array.injEq, exists_and_left, exists_eq_left']
    have hproper : ∀ (pair : Json × Nat) report,
        ((element.decode reading follow pair.1).bind fun report =>
          some (report.under [toString pair.2] ["elements"])) = some report → report.Proper := by
      intro pair report h
      obtain ⟨inner, hinner, hreport⟩ := Option.bind_eq_some_iff.mp h
      rw [← Option.some.inj hreport]
      exact (Node.decode_proper hfollow hinner).under _ _
    have hitem : ∀ (pair : Json × Nat) value,
        ((element.decode reading follow pair.1).bind fun report =>
          some (report.under [toString pair.2] ["elements"])) = some (.ok value) ↔
        element.Decodes reading follow pair.1 value := by
      intro pair value
      simp [Option.bind_eq_some_iff]
    constructor
    · rintro ⟨reports, hreports, values, hvalues, rfl⟩
      have hmatch := (Report.gather_mapM_eq_ok_iff hproper).mp ⟨reports, hreports, hvalues⟩
      have hvalues := hmatch.imp fun pair value => (hitem pair value).mp
      exact ⟨values, forall₂_zipIdx_iff.mp hvalues, rfl⟩
    · rintro ⟨values, hvalues, rfl⟩
      have hmatch := (forall₂_zipIdx_iff.mpr hvalues).imp fun pair value => (hitem pair value).mpr
      obtain ⟨reports, hreports, hgather⟩ := (Report.gather_mapM_eq_ok_iff hproper).mpr hmatch
      exact ⟨reports, hreports, values, hgather, rfl⟩
  | _ => simp [Kind.decode]

theorem Kind.decode_record_iff (hfollow : FollowsProperly follow) {node : Node} {input : Json}
    {value : Value} :
    Kind.decode reading follow (.record node) input = some (.ok value) ↔
      ∃ entries fields, input = .object entries ∧
        List.Forall₂ (fun entry field => field.1 = entry.1 ∧
          node.Decodes reading follow entry.2 field.2) entries fields ∧
        value = .object fields := by
  cases input with
  | object entries =>
    simp only [Kind.decode, Option.bind_eq_bind, Option.bind_eq_some_iff, Option.pure_def,
      Option.some.injEq, Report.map_eq_ok_iff, Json.object.injEq, exists_and_left, exists_eq_left']
    have hproper : ∀ (entry : String × Json) report,
        ((node.decode reading follow entry.2).bind fun report =>
          some (fieldReport entry.1 (report.under [entry.1] ["values"]))) = some report →
        report.Proper := by
      intro entry report h
      obtain ⟨inner, hinner, hreport⟩ := Option.bind_eq_some_iff.mp h
      rw [← Option.some.inj hreport]
      exact ((Node.decode_proper hfollow hinner).under _ _).map _
    have hentry : ∀ (entry : String × Json) (field : String × Value),
        ((node.decode reading follow entry.2).bind fun report =>
          some (fieldReport entry.1 (report.under [entry.1] ["values"]))) = some (.ok field) ↔
        field.1 = entry.1 ∧ node.Decodes reading follow entry.2 field.2 := by
      rintro ⟨key, item⟩ ⟨key', value⟩
      simp only [Option.bind_eq_some_iff, Option.some.injEq, fieldReport, Report.map_eq_ok_iff,
        Report.under_eq_ok_iff, Prod.mk.injEq]
      constructor
      · rintro ⟨report, hreport, value, rfl, rfl, rfl⟩
        exact ⟨rfl, hreport⟩
      · rintro ⟨rfl, hvalue⟩
        exact ⟨_, hvalue, value, rfl, rfl, rfl⟩
    constructor
    · rintro ⟨reports, hreports, fields, hfields, rfl⟩
      have hmatch := (Report.gather_mapM_eq_ok_iff hproper).mp ⟨reports, hreports, hfields⟩
      exact ⟨fields, hmatch.imp fun entry field => (hentry entry field).mp, rfl⟩
    · rintro ⟨fields, hfields, rfl⟩
      have hmatch := hfields.imp fun entry field => (hentry entry field).mpr
      obtain ⟨reports, hreports, hgather⟩ := (Report.gather_mapM_eq_ok_iff hproper).mpr hmatch
      exact ⟨reports, hreports, fields, hgather, rfl⟩
  | _ => simp [Kind.decode]

theorem decodeVariant_eq_ok_iff {tag name : String} {variants : List (String × Shape)}
    {input : Json} {value : Value} :
    decodeVariant reading follow tag name variants input = some (some (.ok value)) ↔
      ∃ shape fields, variants.lookup name = some shape ∧
        shape.decode reading follow (some tag) input = some (.ok fields) ∧
        value = .variant name fields := by
  rw [decodeVariant_eq_lookup]
  cases variants.lookup name with
  | none => simp
  | some shape =>
    simp only [Option.map_eq_some_iff, Option.some.injEq, exists_and_left, exists_eq_left',
      Report.map_eq_ok_iff, Report.under_eq_ok_iff]
    constructor
    · rintro ⟨report, hreport, fields, rfl, rfl⟩
      exact ⟨fields, hreport, rfl⟩
    · rintro ⟨fields, hfields, rfl⟩
      exact ⟨_, hfields, fields, rfl, rfl⟩

theorem Kind.decode_union_iff {tag : String} {variants : List (String × Shape)} {input : Json}
    {value : Value} :
    Kind.decode reading follow (.union tag variants) input = some (.ok value) ↔
      ∃ entries name shape fields, input = .object entries ∧
        entries.lookup tag = some (.string name) ∧ variants.lookup name = some shape ∧
        shape.decode reading follow (some tag) input = some (.ok fields) ∧
        value = .variant name fields := by
  cases input with
  | object entries =>
    simp only [Kind.decode, Json.object.injEq, exists_and_left, exists_eq_left']
    split
    · rename_i name hname
      simp only [Option.bind_eq_bind, Option.bind_eq_some_iff, hname, Option.some.injEq,
        Json.string.injEq, exists_eq_left']
      have hvariant := @decodeVariant_eq_ok_iff reading follow tag name variants (.object entries)
        value
      simp only [exists_and_left] at hvariant
      rw [← hvariant]
      constructor
      · rintro ⟨outcome, houtcome, h⟩
        cases outcome with
        | none => exact absurd (Option.some.inj h) Report.fail_ne_ok
        | some report => rw [houtcome, Option.some.inj h]
      · intro h
        exact ⟨_, h, rfl⟩
    · rename_i other hname hother
      have hnot : ∀ name, other ≠ .string name := fun name h => hname name h
      simp [hother, hnot]
    · rename_i hnone
      simp [hnone]
  | _ => simp [Kind.decode]

/-- **Decoding along a node**: `null` is decoded where it will do; anything else, and `null` where
it will not do, is decoded along what the node demands. -/
theorem Node.decode_eq_ok_iff {kind : Kind} {nullable : Bool} {input : Json} {value : Value} :
    (⟨kind, nullable⟩ : Node).decode reading follow input = some (.ok value) ↔
      (input = .null ∧ nullable = true ∧ value = .null) ∨
        (¬ (input = .null ∧ nullable = true) ∧
          kind.decode reading follow input = some (.ok value)) := by
  rw [Node.decode]
  split
  · rename_i h
    rw [Bool.and_eq_true, Json.isNull_iff] at h
    simp only [Option.some.injEq, Report.ok_inj, h, true_and, and_self, not_true, false_and,
      or_false]
    exact eq_comm
  · rename_i h
    rw [Bool.and_eq_true, Json.isNull_iff] at h
    simp only [h, not_false_eq_true, true_and]
    rw [← and_assoc]
    simp [h]

end RpcSchema.Program
