/-
Documents and the schema that is published for them.

The schema describes the wire form part by part, and each part is described rightly but for one
word.  A function has the name of its kind for a key, beside its number, its label, its wait and
its failure policy; the schema asks for exactly one of eight variants, and each of these allows
no key but the name of its kind.  A function has other keys, so it is none of them.  So a
document conforms only if it has no functions at all.

With the eight variants left open nothing else is in the way: there every document conforms that
is built.
-/
import Testbed.Schema.Wire
import Testbed.Proofs.Schema.Written
import Testbed.Proofs.Scenario.Isolation

namespace Testbed

namespace Schema

variable {root : Json} {depth : Nat}

/-! ### Recurring parts -/

theorem admits_anything (description : String) (v : Json) :
    admits root (depth + 1) (anything description).toJson v = true := by
  rw [admits_toJson_iff rfl, demands_iff]
  simp [anything]

theorem admits_text (description : String) (default : Option Json) (s : String) :
    admits root (depth + 1) ({ text description with default := default } : Schema).toJson
      (.string s) = true := by
  rw [admits_toJson_iff rfl, demands_iff]
  simp [text, isOfType, JsonType.text, fields, elements]

theorem admits_seconds (description : String) {types : List JsonType} (h : .number ∈ types)
    (n : Number) : admits root (depth + 1)
      ({ seconds description with types := types } : Schema).toJson (.number n) = true := by
  have htype : ∃ t ∈ types, isOfType (.number n) t.text = true := ⟨.number, h, rfl⟩
  rw [admits_toJson_iff rfl, demands_iff]
  simp [seconds, htype, fields, elements]

theorem admits_table (description : String) (members : Members) :
    admits root (depth + 1) (table description).toJson (.object members) = true := by
  rw [admits_toJson_iff rfl, demands_iff]
  simp [table, isOfType, JsonType.text, fields, elements, admits_boolean]

theorem atLeast_zero (n : Nat) : (Number.integer n).atLeast (.float (.zero false)) = true := by
  have hzero : ((Binary64.zero false).numerator : Int) = 0 := by decide
  simp only [Number.atLeast, Number.ratio, hzero, Int.neg_zero, ite_self, Int.zero_mul,
    decide_eq_true_eq]
  exact Int.mul_nonneg (Int.natCast_nonneg n) (Int.natCast_nonneg _)

/-- A number of a function is whole, and not below zero. -/
theorem admits_id (description : Option String) (n : Nat) :
    admits root (depth + 1) ({ id with description := description } : Schema).toJson (.ofNat n)
      = true := by
  rw [admits_toJson_iff rfl, demands_iff]
  simp [id, isOfType, JsonType.text, Json.ofNat, Number.isWhole, Number.ratio, fields, elements,
    atLeast_zero]

/-- An array is judged item by item. -/
theorem admits_array_iff {description : Option String} {default : Option Json} {item : Schema}
    {vs : List Json} : admits root (depth + 1) ({ ids "" with
        description := description, default := default, items := item } : Schema).toJson (.array vs)
          = true
      ↔ ∀ v ∈ vs, admits root depth item.toJson v = true := by
  rw [admits_toJson_iff rfl, demands_iff]
  simp [ids, isOfType, JsonType.text, fields, elements]

theorem admits_ids (description : String) (default : Option Json) (ns : List Nat) :
    admits root (depth + 2) ({ ids description with default := default } : Schema).toJson
      (.ofNats ns) = true := by
  refine admits_array_iff.mpr fun v hv => ?_
  obtain ⟨n, -, rfl⟩ := List.mem_map.mp hv
  exact admits_id none n

theorem admits_definedPart {name : String} {target : Json}
    (h : target? root (.string (definitionPath name)) = some target) (description : String)
    (default : Json) (v : Json) :
    admits root (depth + 2) (definedPart description default name).toJson v
      = admits root depth target v := by
  rw [Bool.eq_iff_iff, admits_toJson_iff rfl, demands_iff]
  simp [definedPart, defined, admits_definition h]

/-! ### Payloads -/

/-- The schema of the payload of a kind. -/
def payload : Kind → Schema
  | .startJob => job
  | .stopJob => stop
  | .stopJobs => stops
  | .startScenario => launch
  | .stopScenario => stop
  | .reboot => reboot
  | .branch => branch
  | .loop => loop

section Record

variable {members : Members} {properties : List (String × Schema)}

/-- The values in an object are admitted by the schemas that are declared for their keys. -/
def Fits (root : Json) (depth : Nat) (members : Members) (properties : List (String × Schema)) :
    Prop :=
  ∀ property ∈ properties, ∀ x, Keyed.get? property.1 members = some x →
    admits root depth property.2.toJson x = true

theorem fits_nil : Fits root depth members [] := fun _ h => absurd h List.not_mem_nil

theorem Fits.cons {name : String} {s : Schema} {v : Json} (hget : Keyed.get? name members = some v)
    (hv : admits root depth s.toJson v = true) (hrest : Fits root depth members properties) :
    Fits root depth members ((name, s) :: properties) := by
  refine List.forall_mem_cons.mpr ⟨fun x hx => ?_, hrest⟩
  cases hget.symm.trans hx
  exact hv

/-- A key may be left out, unless it is required. -/
theorem Fits.skip {name : String} {s : Schema} (hget : Keyed.get? name members = none)
    (hrest : Fits root depth members properties) :
    Fits root depth members ((name, s) :: properties) := by
  refine List.forall_mem_cons.mpr ⟨fun x hx => ?_, hrest⟩
  cases hget.symm.trans hx

variable {description : Option String} {required : List String} {additional : Option Bool}
  (hrequired : ∀ name ∈ required, name ∈ Keyed.keys members)
  (hproperties : Fits root depth members properties) (hadditional : additional ≠ some false)

include hrequired hproperties hadditional

/-- An object that has the required keys, that fits, and that is exactly one of some variants. -/
theorem admits_variant {variants : List Schema} (hvariants : variants = []
      ∨ variants.countP (fun s => admits root depth s.toJson (.object members)) = 1) :
    admits root (depth + 1) ({ record "" required properties with
      description := description, oneOf := variants, additional := additional } : Schema).toJson
        (.object members) = true := by
  refine (admits_toJson_iff rfl _ _).mpr ⟨Or.inr ⟨.object, by simp [record], rfl⟩, ?_, hvariants,
    ?_, ?_, ?_, hproperties, ?_⟩
  · simp [record]
  · simp [record]
  · simp [record]
  · intro _ hmembers name hname
    cases hmembers
    exact hrequired name hname
  · intro allowed hallowed member _
    have htrue : allowed = true := by
      cases allowed with
      | false => exact absurd hallowed hadditional
      | true => rfl
    rw [htrue, admits_boolean]
    exact Or.inr rfl

theorem admits_record : admits root (depth + 1) ({ record "" required properties with
      description := description, additional := additional } : Schema).toJson (.object members)
        = true :=
  admits_variant hrequired hproperties hadditional (Or.inl rfl)

end Record

theorem get?_toMembers {j : Document.Job} (h : j.Apart) {key : String}
    (hkey : key ∈ Document.jobKeys) :
    Keyed.get? key j.toMembers = Keyed.get? key j.fixedMembers := by
  rw [← Keyed.head?_all, Document.all_toMembers h hkey, Keyed.head?_all]

theorem admits_job {j : Document.Job} (h : j.Apart) :
    admits root (depth + 2) job.toJson (.object j.toMembers) = true := by
  have hentity : Keyed.get? "entity_name" j.toMembers = some j.entity :=
    get?_toMembers h (by decide)
  have hoffset : Keyed.get? "offset" j.toMembers = some (.number j.offset) :=
    get?_toMembers h (by decide)
  have hinterval : Keyed.get? "interval" j.toMembers = j.interval.map .number := by
    rw [get?_toMembers h (by decide), Document.Job.fixedMembers]
    cases j.interval <;> rfl
  have hrest : Fits root (depth + 1) j.toMembers
      [("offset", seconds "Delay in seconds applied by the agent before starting the job")] :=
    .cons hoffset (admits_seconds _ List.mem_cons_self _) fits_nil
  refine admits_record (List.forall_mem_cons.mpr ⟨?_, List.forall_mem_singleton.mpr ?_⟩)
    (.cons hentity (admits_anything _ _) ?_) (by simp)
  · exact (Keyed.get?_isSome_iff _ _).mp (hentity ▸ rfl)
  · exact (Keyed.get?_isSome_iff _ _).mp (hoffset ▸ rfl)
  · cases hcase : j.interval with
    | none => exact .skip (hinterval.trans (hcase ▸ rfl)) hrest
    | some interval =>
        exact .cons (hinterval.trans (hcase ▸ rfl)) (admits_seconds _ List.mem_cons_self interval)
          hrest

theorem admits_stop (target : Nat) :
    admits root (depth + 2) stop.toJson (.object [("openbach_function_id", .ofNat target)])
      = true :=
  admits_record (by simp [Keyed.keys]) (.cons rfl (admits_id _ target) fits_nil) (by simp)

theorem admits_bodies {description conditionText firstKey firstText secondKey secondText : String}
    (hkeys : ["condition", firstKey, secondKey].Nodup) (condition : Json) (first second : List Nat) :
    admits root (depth + 3) (record description ["condition"] [
        ("condition", anything conditionText), (secondKey, optionalIds secondText),
        (firstKey, optionalIds firstText)]).toJson
      (.object [("condition", condition), (firstKey, .ofNats first),
        (secondKey, .ofNats second)]) = true := by
  have hget : ∀ {key v}, (key, v) ∈ [("condition", condition), (firstKey, .ofNats first),
      (secondKey, .ofNats second)] → Keyed.get? key [("condition", condition),
        (firstKey, .ofNats first), (secondKey, .ofNats second)] = some v :=
    fun hmem => Keyed.get?_of_mem hkeys hmem
  have hrest : Fits root (depth + 2) _ [(secondKey, optionalIds secondText),
      (firstKey, optionalIds firstText)] :=
    .cons (hget (by simp)) (admits_ids _ _ second)
      (.cons (hget (by simp)) (admits_ids _ _ first) fits_nil)
  exact admits_record (List.forall_mem_singleton.mpr List.mem_cons_self)
    (.cons (hget (by simp)) (admits_anything _ condition) hrest) (by simp)

/-- **The payload of an action conforms to the schema of its kind.** -/
theorem admits_payload {a : Document.Action} (h : ∀ j, a = .startJob j → j.Apart) :
    admits root (depth + 3) (payload a.kind).toJson a.payload = true := by
  cases a with
  | startJob j => exact admits_job (h j rfl)
  | stopJob target => exact admits_stop target
  | stopJobs targets =>
      exact admits_record (by simp [Keyed.keys])
        (.cons rfl (admits_ids _ none targets) fits_nil) (by simp)
  | startScenario scenario arguments =>
      exact admits_record (by simp [Keyed.keys])
        (.cons rfl (admits_table _ arguments) (.cons rfl (admits_anything _ scenario) fits_nil))
        (by simp)
  | stopScenario target => exact admits_stop target
  | reboot entity =>
      exact admits_record (by simp [Keyed.keys])
        (.cons rfl (admits_anything _ entity) fits_nil) (by simp)
  | branch condition whenTrue whenFalse => exact admits_bodies (by decide) ..
  | loop condition eachRound atEnd => exact admits_bodies (by decide) ..

/-! ### Functions -/

/-- The published schema with some schema for functions. -/
def published (function : Schema) : Json :=
  .object ([("$schema", .string "http://json-schema.org/draft-07/schema#"),
      ("title", .string "ScenarioDocument")]
    ++ document.toMembers
    ++ (("definitions", .object (propertiesToMembers
        (("FunctionDocument", function) :: definitions.tail))) :: catalogues))

theorem wire_eq : wire = published function := rfl

/-- A variant of a function that allows other keys beside the name of the kind. -/
def openVariant (kind : Kind) : Schema := { actionVariant kind with additional := none }

/-- A function with its variants left open. -/
def openFunction : Schema := { function with oneOf := Kind.all.map openVariant }

theorem target?_function (f : Schema) :
    target? (published f) (.string (definitionPath "FunctionDocument")) = some f.toJson := rfl

theorem target?_wait (f : Schema) :
    target? (published f) (.string (definitionPath "WaitDocument")) = some wait.toJson := rfl

theorem target?_failure (f : Schema) :
    target? (published f) (.string (definitionPath "OnFailDocument")) = some failure.toJson := rfl

theorem target?_payload (f : Schema) (kind : Kind) :
    target? (published f) (.string (definitionPath (payloadName kind)))
      = some (payload kind).toJson := by
  cases kind <;> rfl

/-! Which keys a function has. -/

theorem tag_mem_keys {f : Document.Function} {kind : Kind}
    (h : kind.tag ∈ Keyed.keys (fields f.toJson)) : kind = f.action.kind := by
  have hkeys : kind.tag ∈ ["id", "label", f.action.kind.tag, "wait", "on_fail"] := h
  have hfixed : kind.tag ∉ ["id", "label", "wait", "on_fail"] := by cases kind <;> decide
  have htag : kind.tag = f.action.kind.tag := by
    by_contra hne
    exact hfixed (by simpa [hne] using hkeys)
  exact Option.some.inj
    ((Document.ofTag?_tag kind).symm.trans (Document.ofTag?_eq_some.mpr htag.symm))

theorem get?_function {f : Document.Function} {key : String} {v : Json}
    (h : (key, v) ∈ fields f.toJson) : Keyed.get? key (fields f.toJson) = some v :=
  Keyed.get?_of_mem (Document.Function.nodup_keys rfl) h

/-- A function is none of the closed variants, for it has a number. -/
theorem admits_actionVariant (kind : Kind) (f : Document.Function) :
    admits root (depth + 1) (actionVariant kind).toJson f.toJson = false := by
  have hid : ("id", Json.ofNat f.id) ∈ fields f.toJson := List.mem_cons_self
  have htag : "id" ≠ kind.tag := by cases kind <;> decide
  rw [Bool.eq_false_iff]
  intro hadmits
  have hdemands := (admits_toJson_iff rfl _ _).mp hadmits
  rcases hdemands.additional false rfl _ hid with hdeclared | hanything
  · exact htag (List.mem_singleton.mp hdeclared)
  · rw [admits_boolean] at hanything
    cases hanything

/-- An open variant is that of the functions of its kind. -/
theorem admits_openVariant {g : Schema} {f : Document.Function}
    (h : ∀ j, f.action = .startJob j → j.Apart) (kind : Kind) :
    admits (published g) (depth + 5) (openVariant kind).toJson f.toJson = true
      ↔ kind = f.action.kind := by
  refine ⟨fun hadmits => ?_, ?_⟩
  · have hdemands := (admits_toJson_iff rfl _ _).mp hadmits
    exact tag_mem_keys (hdemands.required _ rfl _ List.mem_cons_self)
  · rintro rfl
    have hmem : (f.action.kind.tag, f.action.payload) ∈ fields f.toJson := by
      simp [fields, Document.Function.toJson, Document.Action.toMember]
    have hpayload : admits (published g) (depth + 4) (defined (payloadName f.action.kind)).toJson
        f.action.payload = true :=
      (admits_definition (target?_payload g _) _ _).trans (admits_payload h)
    exact admits_record (List.forall_mem_singleton.mpr (Keyed.mem_keys_of_mem hmem))
      (.cons (get?_function hmem) hpayload fits_nil) (by simp)

/-! The other parts of a function. -/

theorem admits_wait (w : Document.Wait) :
    admits root (depth + 3) wait.toJson w.toJson = true := by
  refine admits_record (by simp [Keyed.keys])
    (.cons rfl ?_ (.cons rfl ?_ (.cons rfl ?_ fits_nil))) (by simp)
  · exact admits_ids _ _ w.finished
  · exact admits_ids _ _ w.launched
  · exact admits_seconds _ List.mem_cons_self w.time

theorem admits_failure : admits root (depth + 1) failure.toJson (.object []) = true :=
  admits_record (by simp) fits_nil (by simp)

/-- **A function conforms if it is one of the variants**: whatever else is asked of it is so. -/
theorem admits_function_iff {g : Schema} (variants : List Schema) (f : Document.Function) :
    admits (published g) (depth + 6) ({ function with oneOf := variants } : Schema).toJson f.toJson
        = true
      ↔ variants = []
        ∨ variants.countP (fun s => admits (published g) (depth + 5) s.toJson f.toJson) = 1 := by
  have hwait : ("wait", f.wait.toJson) ∈ fields f.toJson := by
    simp [fields, Document.Function.toJson]
  have hfail : ("on_fail", Json.object []) ∈ fields f.toJson := by
    simp [fields, Document.Function.toJson]
  refine ⟨fun h => ((admits_toJson_iff rfl _ _).mp h).oneOf, admits_variant ?_
    (.cons rfl ?_ (.cons rfl ?_ (.cons (get?_function hfail) ?_ (.cons (get?_function hwait) ?_
      fits_nil)))) (by simp [function, record])⟩
  · exact List.forall_mem_cons.mpr ⟨List.mem_cons_self,
      List.forall_mem_singleton.mpr (List.mem_cons_of_mem _ List.mem_cons_self)⟩
  · exact admits_id _ f.id
  · exact admits_text _ none f.label
  · exact (admits_definedPart (target?_failure g) ..).trans admits_failure
  · exact (admits_definedPart (target?_wait g) ..).trans (admits_wait f.wait)

/-- No function conforms to the schema of functions. -/
theorem admits_function (g : Schema) (f : Document.Function) :
    admits (published g) (depth + 6) function.toJson f.toJson = false := by
  rw [Bool.eq_false_iff]
  intro h
  rcases (admits_function_iff (Kind.all.map actionVariant) f).mp h with hnone | hone
  · cases hnone
  · have hzero : (Kind.all.map actionVariant).countP (fun s =>
        admits (published g) (depth + 5) s.toJson f.toJson) = 0 := by
      rw [List.countP_map, List.countP_eq_zero]
      intro kind _
      simp [admits_actionVariant]
    rw [hzero] at hone
    cases hone

theorem admits_openFunction (g : Schema) {f : Document.Function}
    (h : ∀ j, f.action = .startJob j → j.Apart) :
    admits (published g) (depth + 6) openFunction.toJson f.toJson = true := by
  refine (admits_function_iff (Kind.all.map openVariant) f).mpr (Or.inr ?_)
  have hown : ∀ kind ∈ Kind.all,
      (admits (published g) (depth + 5) (openVariant kind).toJson f.toJson = true
        ↔ (kind == f.action.kind) = true) :=
    fun kind _ => (admits_openVariant h kind).trans beq_iff_eq.symm
  rw [List.countP_map, Function.comp_def, List.countP_congr hown]
  cases f.action.kind <;> rfl

/-! ### Documents -/

/-- What is around the schema of a document are its definitions and some words. -/
theorem admits_published (g : Schema) (v : Json) :
    admits root depth (published g) v = admits root depth document.toJson v := by
  have hfree : ∀ key ∈ demanding, key ∉ ["definitions", "version", "operationKinds",
    "conditionOperators", "operandTypes"] := by decide
  have hafter : ∀ key ∈ demanding, key ∉ Keyed.keys (("definitions",
    .object (propertiesToMembers (("FunctionDocument", g) :: definitions.tail))) :: catalogues) :=
    hfree
  rw [toJson]
  exact admits_around (by decide) hafter document.toMembers depth v

/-- **A document conforms if each of its functions does.** -/
theorem admits_document_iff (g : Schema) (d : Document) :
    admits (published g) (depth + 3) (published g) d.toJson = true
      ↔ ∀ f ∈ d.functions, admits (published g) depth g.toJson f.toJson = true := by
  have hitem : ∀ f : Document.Function,
      admits (published g) (depth + 1) (defined "FunctionDocument").toJson f.toJson
        = admits (published g) depth g.toJson f.toJson :=
    fun f => admits_definition (target?_function g) depth f.toJson
  have hget : ∀ {key v}, (key, v) ∈ [("name", Json.string d.name),
      ("description", .string d.description), ("arguments", .object d.arguments),
      ("constants", .object d.constants),
      ("openbach_functions", .array (d.functions.map Document.Function.toJson))] →
      Keyed.get? key (fields d.toJson) = some v := Keyed.get?_of_mem (by simp [Keyed.keys])
  have hfunctions : Keyed.get? "openbach_functions" (fields d.toJson)
      = some (.array (d.functions.map Document.Function.toJson)) := hget (by simp)
  rw [admits_published]
  refine ⟨fun h f hf => ?_, fun h => ?_⟩
  · have hproperties := ((admits_toJson_iff rfl _ _).mp h).properties
    have hlist := admits_array_iff.mp (hproperties _ (List.mem_of_getLast? rfl) _ hfunctions)
    rw [← hitem]
    exact hlist _ (List.mem_map_of_mem hf)
  · refine admits_record (List.forall_mem_singleton.mpr (by simp [Keyed.keys]))
      (.cons (hget (by simp)) (admits_table _ d.arguments)
        (.cons (hget (by simp)) (admits_table _ d.constants)
          (.cons (hget (by simp)) (admits_text _ _ d.description)
            (.cons (hget (by simp)) (admits_text _ none d.name)
              (.cons hfunctions (admits_array_iff.mpr fun v hv => ?_) fits_nil))))) (by simp)
    obtain ⟨f, hf, rfl⟩ := List.mem_map.mp hv
    rw [hitem]
    exact h f hf

/-- **Only a document without functions conforms to the published schema.** -/
theorem conforms_wire_iff (d : Document) : Conforms wire d.toJson ↔ d.functions = [] := by
  rw [wire_eq]
  refine ⟨fun ⟨enough, h⟩ => List.eq_nil_iff_forall_not_mem.mpr fun f hf => ?_, fun h => ?_⟩
  · have hadmits := (admits_document_iff function d).mp (h (enough + 9) (by omega)) f hf
    rw [admits_function] at hadmits
    cases hadmits
  · refine ⟨3, fun depth hdepth => ?_⟩
    obtain ⟨depth, rfl⟩ := Nat.exists_eq_add_of_le' hdepth
    exact (admits_document_iff function d).mpr (by simp [h])

/-- With the variants left open every document conforms whose jobs are well named. -/
theorem conforms_open {d : Document}
    (h : ∀ f ∈ d.functions, ∀ job, f.action = .startJob job → job.Apart) :
    Conforms (published openFunction) d.toJson := by
  refine ⟨9, fun depth hdepth => ?_⟩
  obtain ⟨depth, rfl⟩ := Nat.exists_eq_add_of_le' hdepth
  exact (admits_document_iff openFunction d).mpr fun f hf => admits_openFunction _ (h f hf)

end Schema

namespace Scenario

/-! ### Scenarios -/

/-- **What a scenario is serialized to conforms to the published schema only if nothing is in it.**

A function that was built is never one of the variants that the schema allows, for they leave no
room for its number and its label.  Everything else in the schema is right: with the variants
left open, whatever can be built conforms.
-/
theorem conforms_serialize {s : Scenario} {v : Json} (hv : s.serialize = .ok v) :
    (Schema.Conforms Schema.wire v ↔ s.operations = [])
      ∧ Schema.Conforms (Schema.published Schema.openFunction) v := by
  obtain ⟨d, hd, rfl⟩ := serialize_eq_ok.mp hv
  have hlength := (functions_of_build hd).1
  have hopen : Schema.Conforms (Schema.published Schema.openFunction) d.toJson :=
    Schema.conforms_open fun f hf job hjob => apart_of_build hd hf hjob
  refine ⟨(Schema.conforms_wire_iff d).trans ?_, hopen⟩
  rw [← List.length_eq_zero_iff, hlength, List.length_eq_zero_iff]

/-- The document does not conform, and would if the variants were open. -/
theorem rebootThenPing_conforms :
    ¬ Schema.Conforms Schema.wire rebootThenPingDocument.toJson
      ∧ Schema.Conforms (Schema.published Schema.openFunction) rebootThenPingDocument.toJson := by
  have hserialize : rebootThenPing.serialize = .ok rebootThenPingDocument.toJson :=
    serialize_eq_ok.mpr ⟨_, rebootThenPing_build, rfl⟩
  obtain ⟨hwire, hopen⟩ := conforms_serialize hserialize
  exact ⟨fun h => List.cons_ne_nil _ _ (hwire.mp h), hopen⟩

/-- One function is enough for a document not to conform. -/
theorem rebootAgent_nonconforming : rebootAgent.Reachable
    ∧ ∃ v, rebootAgent.serialize = .ok v ∧ ¬ Schema.Conforms Schema.wire v := by
  refine ⟨rebootAgent_reachable, _, serialize_eq_ok.mpr ⟨_, rebootAgent_build, rfl⟩, fun h => ?_⟩
  exact List.cons_ne_nil _ _ ((Schema.conforms_wire_iff _).mp h)

end Scenario

end Testbed
