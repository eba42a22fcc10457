/-
Reading documents from their texts.

A document is read from a text by the records of its wire form, which take what they want while
the text goes by: keys that a record does not know are passed over, payloads are set aside as
values, and the array of a positional record is closed by the text and not by its length.  From
every text of a value they take what they take from the value.  So a text and its value are the
same document, if the text repeats no key, and in particular a document that was printed is read
back.
-/
import Testbed.Proofs.Document.Reading
import Testbed.Proofs.Json.Agreement
import Testbed.Proofs.Json.Printing

namespace Testbed.Document

open Json (Codec Reader Record)
open Json.Reader

/-! ### Records -/

theorem agrees_indices (v : Json) : (Codec.index.list).Agrees v :=
  Codec.agrees_list fun _ _ w _ => Codec.agrees_index w

theorem waitRecord_agrees : ∀ v, waitRecord.codec.Agrees v :=
  Record.agrees_codec (List.forall_mem_cons.mpr ⟨fun v => (Codec.agrees_number v).map _,
    List.forall_mem_cons.mpr ⟨fun v => (agrees_indices v).map _,
      List.forall_mem_singleton.mpr fun v => (agrees_indices v).map _⟩⟩) nofun

theorem failureRecord_agrees : ∀ v, failureRecord.codec.Agrees v :=
  Record.agrees_codec (fun _ hf => absurd hf List.not_mem_nil) nofun

theorem functionRecord_agrees : ∀ v, functionRecord.codec.Agrees v := by
  refine Record.agrees_codec (List.forall_mem_cons.mpr ⟨fun v => (Codec.agrees_index v).map _,
    List.forall_mem_cons.mpr ⟨fun v => (Codec.agrees_string v).map _,
      List.forall_mem_cons.mpr ⟨fun v => (waitRecord_agrees v).map _,
        List.forall_mem_singleton.mpr fun v => (failureRecord_agrees v).map _⟩⟩⟩) ?_
  intro other hother name v
  -- whatever stands under another key is set aside
  cases hother
  exact (Codec.agrees_raw v).map _

theorem agrees_functions (v : Json) : (Codec.list functionRecord.codec).Agrees v :=
  Codec.agrees_list fun _ _ w _ => functionRecord_agrees w

theorem record_agrees : ∀ v, record.codec.Agrees v :=
  Record.agrees_codec (List.forall_mem_cons.mpr ⟨fun v => (Codec.agrees_string v).map _,
    List.forall_mem_cons.mpr ⟨fun v => (Codec.agrees_string v).map _,
      List.forall_mem_cons.mpr ⟨fun v => (Codec.agrees_members v).map _,
        List.forall_mem_cons.mpr ⟨fun v => (Codec.agrees_members v).map _,
          List.forall_mem_singleton.mpr fun v => (agrees_functions v).map _⟩⟩⟩⟩) nofun

/-! ### Texts -/

theorem whole_eq_ok {α : Type} {r : Reader α} {text : String} {a : α} :
    whole r text = .ok a ↔ ∃ t, r.Reads text.toList a t ∧ t.dropWhile isBlank = [] := by
  unfold whole
  rw [Outcome.bind_eq_ok]
  refine ⟨?_, ?_⟩
  · rintro ⟨⟨b, t⟩, hread, h⟩
    dsimp only at h
    split at h
    · rename_i hempty
      cases h
      exact ⟨t, hread, List.isEmpty_iff.mp hempty⟩
    · cases h
  · rintro ⟨t, hread, ht⟩
    refine ⟨(a, t), hread, ?_⟩
    dsimp only
    rw [ht]
    rfl

/-- A text as it is written: the members of each object stand in it with their repetitions. -/
def WrittenAs (text : String) (w : Json) : Prop := whole (value Json.depthLimit) text = .ok w

theorem parse_eq_ok {text : String} {v : Json} :
    Json.parse Json.depthLimit text = .ok v ↔ ∃ w, WrittenAs text w ∧ w.collapse = v := by
  unfold Json.parse
  simp only [Outcome.bind_eq_ok, Outcome.pure_eq_ok]
  exact Iff.rfl

/-- **A document is read from a text exactly if it is read from what is written there.** -/
theorem WrittenAs.ofText_eq_ok {text : String} {w : Json} (h : WrittenAs text w) {d : Document} :
    ofText text = .ok d ↔ ofJson w = .ok d := by
  obtain ⟨t, hw, ht⟩ := whole_eq_ok.mp h
  have hagrees := record_agrees w _ _ _ hw
  unfold ofText
  rw [whole_eq_ok]
  refine ⟨?_, ?_⟩
  · rintro ⟨u, hread, -⟩
    exact ((hagrees d u).mp hread).1
  · intro hd
    exact ⟨t, (hagrees d t).mpr ⟨hd, rfl⟩, ht⟩

/-- A value is written as it is in both layouts, with the keys that it repeats. -/
theorem writtenAs_render {v : Json} (h : v.Numbered Number.Restorable)
    (hdepth : v.depth ≤ Json.depthLimit) (pretty : Bool) :
    WrittenAs (v.render (.ofPretty pretty)) v := by
  refine whole_eq_ok.mpr ⟨[], ?_, rfl⟩
  rw [← List.append_nil (v.render (.ofPretty pretty)).toList]
  exact Json.reads_print (Json.Style.blank_ofPretty pretty) h hdepth (stops_nil goesOn)

/-- **A canonical document is read back from its text in both layouts,** if the reader allows as
many brackets inside one another as there are in it. -/
theorem Canonical.ofText_render {d : Document} (h : d.Canonical Number.Restorable)
    (hdepth : d.toJson.depth ≤ Json.depthLimit) (pretty : Bool) :
    Document.ofText (d.toJson.render (.ofPretty pretty)) = .ok d :=
  (writtenAs_render h.proper.numbered hdepth pretty).ofText_eq_ok.mpr h.ofJson_toJson

/-! ### Two ways to read a text -/

/--
**A text and the value that it says are read as the same document,** if in the text no object
repeats a key.
-/
theorem ofText_iff_ofJson {text : String} {v : Json}
    (hread : Json.parse Json.depthLimit text = .ok v)
    (honce : ∀ w, WrittenAs text w → w.KeysOnce) (d : Document) :
    ofText text = .ok d ↔ ofJson v = .ok d := by
  obtain ⟨w, hw, rfl⟩ := parse_eq_ok.mp hread
  rw [(honce w hw).collapse_eq]
  exact hw.ofText_eq_ok

/-- One and a half. -/
def oneAndHalf : Binary64 := ⟨false, ⟨1023, by decide⟩, ⟨2251799813685248, by decide⟩⟩

theorem oneAndHalf_restorable : (Number.float oneAndHalf).Restorable := by
  show Json.Reader.number.run (Number.floatText oneAndHalf) = .ok (.float oneAndHalf, [])
  decide +kernel

/-- A function as it may be written by hand: its wait and its payload are arrays, and a key is none
of the known ones. -/
def handwrittenFunction : Json :=
  .object [("wait", .array [.number (.float oneAndHalf), .ofNats [1, 1]]),
    ("note", .object [("é", .array [.null])]), ("reboot", .array [.string "agent"]),
    ("label", .string ""), ("id", .ofNat 7)]

/-- A document of this function, without what has a default. -/
def handwritten : Json :=
  .object [("openbach_functions", .array [handwrittenFunction]), ("name", .string "n")]

/-- What is read from it, with the defaults put in. -/
def handwrittenDocument : Document :=
  ⟨"n", "", [], [], [⟨7, "", .reboot (.string "agent"), ⟨.float oneAndHalf, [1, 1], []⟩⟩]⟩

theorem handwrittenFunction_proper : handwrittenFunction.Proper Number.Restorable := by
  have hids : (Json.ofNats [1, 1]).Proper Number.Restorable :=
    Json.proper_ofNats (List.forall_mem_cons.mpr ⟨Number.restorable_natural (by decide),
      List.forall_mem_singleton.mpr (Number.restorable_natural (by decide))⟩)
  have hwait : (Json.array [.number (.float oneAndHalf), .ofNats [1, 1]]).Proper
      Number.Restorable :=
    .array (List.forall_mem_cons.mpr ⟨.number oneAndHalf_restorable,
      List.forall_mem_singleton.mpr hids⟩)
  have hnote : (Json.object [("é", .array [.null])]).Proper Number.Restorable :=
    proper_record (by decide)
      (List.forall_mem_singleton.mpr (.array (List.forall_mem_singleton.mpr .null)))
  have hpayload : (Json.array [.string "agent"]).Proper Number.Restorable :=
    .array (List.forall_mem_singleton.mpr (.string "agent"))
  refine proper_record (by decide) ?_
  refine List.forall_mem_cons.mpr ⟨hwait, List.forall_mem_cons.mpr ⟨hnote,
    List.forall_mem_cons.mpr ⟨hpayload, List.forall_mem_cons.mpr ⟨.string "",
      List.forall_mem_singleton.mpr (.number (Number.restorable_natural (by decide)))⟩⟩⟩⟩

theorem handwritten_proper : handwritten.Proper Number.Restorable :=
  proper_record (by decide) (List.forall_mem_cons.mpr
    ⟨.array (List.forall_mem_singleton.mpr handwrittenFunction_proper),
      List.forall_mem_singleton.mpr (.string "n")⟩)

theorem handwritten_depth : handwritten.depth ≤ Json.depthLimit := by
  have hdepth : handwritten.depth = 5 := rfl
  rw [hdepth]
  decide

theorem handwritten_written : WrittenAs handwritten.compact handwritten :=
  writtenAs_render handwritten_proper.numbered handwritten_depth false

theorem handwritten_reads : Json.parse Json.depthLimit handwritten.compact = .ok handwritten :=
  parse_eq_ok.mpr ⟨_, handwritten_written, handwritten_proper.collapse_eq⟩

theorem handwritten_once {w : Json} (h : WrittenAs handwritten.compact w) : w.KeysOnce := by
  cases Except.ok.inj (handwritten_written.symm.trans h)
  exact handwritten_proper.mono fun _ _ => trivial

theorem handwritten_ofText_iff :
    (Json.parse Json.depthLimit handwritten.compact = .ok handwritten
        ∧ ∀ w, WrittenAs handwritten.compact w → w.KeysOnce)
      ∧ ofJson handwritten = .ok handwrittenDocument
      ∧ ofText handwritten.compact = .ok handwrittenDocument := by
  have hvalue : ofJson handwritten = .ok handwrittenDocument := rfl
  exact ⟨⟨handwritten_reads, fun _ => handwritten_once⟩, hvalue,
    (ofText_iff_ofJson handwritten_reads (fun _ => handwritten_once) _).mpr hvalue⟩

end Testbed.Document
