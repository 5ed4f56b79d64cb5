import JoinPipeline.Proofs.Decoding
import JoinPipeline.Proofs.Quoting
import JoinPipeline.Proofs.Warnings

/-!
# Lines that count as warnings

A captured line counts as a warning wherever the mark stands in it. Every line of that level has
the mark around its level. But what is behind the level of another line, be it the name of a join,
may have it as well, and then this line is counted, too: the count is that of the warnings exactly
if no line of another level has the mark behind its level.
-/

namespace JoinPipeline.Log

open Text (occursIn occursIn_iff notMem_append)

/-- The parts of a line of log text. The level is a word in a column, with blanks in front of it if
it is shorter than others. -/
structure Entry where
  stamp : String
  indent : Nat := 0
  level : String
  target : String
  text : String

namespace Entry

/-- What stands behind the level. -/
def behind (e : Entry) : String := " " ++ e.target ++ ": " ++ e.text

def line (e : Entry) : String :=
  e.stamp ++ " " ++ (String.ofList (List.replicate e.indent ' ') ++ e.level) ++ e.behind

def isWarning (e : Entry) : Bool := e.level = "WARN"

/-- The mark of a warning stands behind the level. -/
def holdsMark (e : Entry) : Bool := occursIn Capture.warningMark.toList e.behind.toList

theorem holdsMark_iff {e : Entry} :
    e.holdsMark = true ↔ Capture.warningMark.toList <:+: e.behind.toList :=
  occursIn_iff _ _

/-- The time stamp and the level are words, and there is no line break in the line. -/
structure IsPlain (e : Entry) : Prop where
  stamp : ' ' ∉ e.stamp.toList
  level : ' ' ∉ e.level.toList
  line : '\n' ∉ e.line.toList

theorem toList_line (e : Entry) : e.line.toList =
    e.stamp.toList ++ ' ' :: (List.replicate e.indent ' ' ++ (e.level.toList ++ e.behind.toList)) := by
  simp [line]

theorem toList_mark : Capture.warningMark.toList = ' ' :: ("WARN".toList ++ [' ']) := by decide

/-- The mark begins with one blank only. -/
theorem mark_infix_blanks_iff (n : Nat) (text : List Char) :
    Capture.warningMark.toList <:+: ' ' :: (List.replicate n ' ' ++ text) ↔
      Capture.warningMark.toList <:+: ' ' :: text := by
  induction n with
  | zero => rfl
  | succ n ih =>
    rw [List.replicate_succ, List.cons_append, List.infix_cons_iff, ih]
    refine or_iff_right ?_
    simp [toList_mark]

/-- The mark is around the level of a warning, or behind the level. -/
theorem isWarning_line {e : Entry} (h : e.IsPlain) :
    Capture.isWarning e.line.toList = (e.isWarning || e.holdsMark) := by
  have hbehind : e.behind.toList = ' ' :: (e.target ++ ": " ++ e.text).toList := by
    simp [behind]
  have haround : Capture.warningMark.toList <+: ' ' :: (e.level.toList ++ e.behind.toList) ↔
      e.level = "WARN" := by
    rw [toList_mark, hbehind, List.cons_prefix_cons,
      Text.concat_prefix_append_cons_iff (by decide) h.level, String.toList_inj]
    simp [eq_comm]
  have hlater : Capture.warningMark.toList <:+: e.level.toList ++ e.behind.toList ↔
      Capture.warningMark.toList <:+: e.behind.toList := by
    rw [toList_mark]
    exact Text.cons_infix_append_iff h.level
  have hline : Capture.warningMark.toList <:+: e.line.toList ↔
      e.level = "WARN" ∨ Capture.warningMark.toList <:+: e.behind.toList := by
    rw [toList_line, ← haround, ← hlater, ← List.infix_cons_iff, ← mark_infix_blanks_iff e.indent,
      toList_mark]
    exact Text.cons_infix_append_iff h.stamp
  rw [Bool.eq_iff_iff, Capture.isWarning, occursIn_iff, hline, Bool.or_eq_true, holdsMark_iff,
    isWarning, decide_eq_true_eq]

/-- No number has the mark in it. -/
theorem mark_infix_toString_append_iff (n : Nat) (text : List Char) :
    Capture.warningMark.toList <:+: (toString n).toList ++ text ↔
      Capture.warningMark.toList <:+: text := by
  rw [toList_mark]
  exact Text.cons_infix_append_iff (Text.notMem_toString rfl n)

theorem mark_infix_quoted_append_iff (s : String) (text : List Char) :
    Capture.warningMark.toList <:+: (Text.quoted s).toList ++ text ↔
      Capture.warningMark.toList <:+: s.toList ∨ Capture.warningMark.toList <:+: text := by
  have hmarks : (' ' :: ("WARN".toList ++ [' '])).all (· ∉ Text.escapeMarks) = true := by decide
  have hself : (' ' :: ("WARN".toList ++ [' '])).all (fun y => Text.escape y = [y]) = true := by
    decide +kernel
  rw [toList_mark]
  exact Text.infix_quoted_append_iff
    (fun y hy => of_decide_eq_true (List.all_eq_true.1 hmarks y hy))
    (fun y hy => of_decide_eq_true (List.all_eq_true.1 hself y hy)) s text

/-- The fixed text in front of the value of a field. -/
theorem mark_infix_part_append_iff {part : String} (hend : part.toList.getLast? = some '=')
    (hpart : occursIn Capture.warningMark.toList part.toList = false) (text : List Char) :
    Capture.warningMark.toList <:+: part.toList ++ text ↔
      Capture.warningMark.toList <:+: text := by
  obtain ⟨front, hfront⟩ := List.getLast?_eq_some_iff.1 hend
  have hlacks : ¬Capture.warningMark.toList <:+: front := by
    intro hin
    have hoccurs := (occursIn_iff _ _).2 (hin.trans (List.prefix_append front ['=']).isInfix)
    rw [← hfront, hpart] at hoccurs
    cases hoccurs
  rw [hfront, List.append_assoc, List.singleton_append,
    Text.infix_append_cons_iff (by decide), or_iff_right hlacks]

end Entry

namespace Event

/-- The parts of the line of an event. -/
def entry (stamp : String) (e : Event) : Entry where
  stamp := stamp
  indent := 5 - e.level.name.length
  level := e.level.name
  target := e.target
  text := e.text

theorem line_eq (stamp : String) (e : Event) : e.line stamp = (e.entry stamp).line ++ "\n" := by
  simp only [line, entry, Entry.line, Entry.behind, Level.column, String.append_assoc]

theorem isWarning_entry (stamp : String) (e : Event) :
    (e.entry stamp).isWarning = e.isWarning := by
  cases e <;> rfl

/-- What is reported while a pipeline is built. -/
def isOfBuilding : Event → Bool
  | chained .. | builtPlan .. | addedCoGroup .. => true
  | _ => false

/-- A join is added under a name that has the mark of a warning in it. -/
def isMisleading : Event → Bool
  | addedCoGroup transform _ => occursIn Capture.warningMark.toList transform.toList
  | _ => false

theorem newline_notMem_text {e : Event} (h : e.isOfBuilding = true) : '\n' ∉ e.text.toList := by
  have hnumber : ∀ n : Nat, '\n' ∉ (toString n).toList := Text.notMem_toString rfl
  cases e with
  | chained transform inputs =>
    refine notMem_append (notMem_append (notMem_append (notMem_append (notMem_append ?_ ?_) ?_)
      (Text.newline_notMem_quoted transform)) ?_) (hnumber inputs)
    all_goals decide +kernel
  | builtPlan terminal nodes stages =>
    refine notMem_append (notMem_append (notMem_append (notMem_append (notMem_append ?_
      (hnumber terminal)) ?_) (hnumber nodes)) ?_) (hnumber stages)
    all_goals decide +kernel
  | addedCoGroup transform node =>
    refine notMem_append (notMem_append (notMem_append ?_ (Text.newline_notMem_quoted transform)) ?_)
      (hnumber node)
    all_goals decide +kernel
  | runningPlan | statelessStage | coGroupFinished => cases h

theorem newline_notMem_target {e : Event} (h : e.isOfBuilding = true) :
    '\n' ∉ e.target.toList := by
  cases e with
  | chained =>
    show '\n' ∉ "ironbeam_join::join::chain".toList
    decide +kernel
  | builtPlan =>
    show '\n' ∉ "ironbeam_join::planner".toList
    decide +kernel
  | addedCoGroup =>
    show '\n' ∉ "ironbeam_join::join::kernel".toList
    decide +kernel
  | runningPlan | statelessStage | coGroupFinished => cases h

theorem isPlain_entry {stamp : String} (hblank : ' ' ∉ stamp.toList) (hbreak : '\n' ∉ stamp.toList)
    {e : Event} (h : e.isOfBuilding = true) : (e.entry stamp).IsPlain where
  stamp := hblank
  level := by
    show ' ' ∉ e.level.name.toList
    cases e.level <;> decide
  line := by
    have hlevel : '\n' ∉ e.level.name.toList := by cases e.level <;> decide
    have hbehind : '\n' ∉ (e.entry stamp).behind.toList :=
      notMem_append (notMem_append (notMem_append (by decide) (newline_notMem_target h)) (by decide))
        (newline_notMem_text h)
    have hindent : '\n' ∉ (String.ofList (List.replicate (5 - e.level.name.length) ' ')).toList := by
      simp
    exact notMem_append (notMem_append (notMem_append hbreak (by decide))
      (notMem_append hindent hlevel)) hbehind

/-- Of what else is reported while a pipeline is built, only the name of a join can have the mark. -/
theorem holdsMark_entry (stamp : String) {e : Event} (h : e.isOfBuilding = true)
    (hlevel : e.isWarning = false) : (e.entry stamp).holdsMark = e.isMisleading := by
  cases e with
  | chained => cases hlevel
  | builtPlan terminal nodes stages =>
    have hbehind : ((builtPlan terminal nodes stages).entry stamp).behind =
        " " ++ "ironbeam_join::planner" ++ ": " ++ "built plan terminal=" ++
          (toString terminal ++ (" nodes=" ++ (toString nodes ++ (" stages=" ++
            (toString stages ++ ""))))) := by
      show " " ++ "ironbeam_join::planner" ++ ": " ++ ("built plan terminal=" ++ toString terminal ++
        " nodes=" ++ toString nodes ++ " stages=" ++ toString stages) = _
      simp only [String.append_assoc, String.append_empty]
    have hlacks : ¬Capture.warningMark.toList <:+:
        ((builtPlan terminal nodes stages).entry stamp).behind.toList := by
      rw [hbehind, String.toList_append, Entry.mark_infix_part_append_iff (by decide +kernel)
          (by decide +kernel),
        String.toList_append, Entry.mark_infix_toString_append_iff,
        String.toList_append, Entry.mark_infix_part_append_iff (by decide +kernel) (by decide +kernel),
        String.toList_append, Entry.mark_infix_toString_append_iff,
        String.toList_append, Entry.mark_infix_part_append_iff (by decide +kernel) (by decide +kernel),
        String.toList_append, Entry.mark_infix_toString_append_iff]
      decide
    exact Bool.eq_false_iff.2 fun h => hlacks (Entry.holdsMark_iff.1 h)
  | addedCoGroup transform node =>
    have hbehind : ((addedCoGroup transform node).entry stamp).behind =
        " " ++ "ironbeam_join::join::kernel" ++ ": " ++ "added co-group transform=" ++
          (Text.quoted transform ++ (" node=" ++ (toString node ++ ""))) := by
      show " " ++ "ironbeam_join::join::kernel" ++ ": " ++ ("added co-group transform=" ++
        Text.quoted transform ++ " node=" ++ toString node) = _
      simp only [String.append_assoc, String.append_empty]
    rw [Bool.eq_iff_iff, Entry.holdsMark_iff, hbehind, isMisleading, occursIn_iff,
      String.toList_append, Entry.mark_infix_part_append_iff (by decide +kernel) (by decide +kernel),
      String.toList_append, Entry.mark_infix_quoted_append_iff,
      String.toList_append, Entry.mark_infix_part_append_iff (by decide +kernel) (by decide +kernel),
      String.toList_append, Entry.mark_infix_toString_append_iff]
    exact or_iff_left (by decide)
  | runningPlan | statelessStage | coGroupFinished => cases h

end Event

namespace Capture

/-- The pieces hold these lines, one behind another, wherever they are cut. -/
def Holds (pieces : List ByteArray) (entries : List Entry) : Prop :=
  pieces.flatMap ByteArray.toList = entries.flatMap fun e => (e.line ++ "\n").toUTF8.toList

variable {pieces : List ByteArray} {entries : List Entry}

/-- Whichever writer a piece comes through, it is put behind the others. -/
theorem toList_foldl_write (c : Capture) (pieces : List ByteArray) :
    (pieces.foldl write c).bytes.toList = c.bytes.toList ++ pieces.flatMap ByteArray.toList := by
  induction pieces generalizing c with
  | nil => simp
  | cons piece pieces ih =>
    rw [List.foldl_cons, ih, write, Text.toList_append, List.flatMap_cons, List.append_assoc]

theorem text_of_holds (h : Holds pieces entries) :
    (pieces.foldl write {}).text = entries.flatMap fun e => e.line.toList ++ ['\n'] := by
  have hencoded : ∀ e : Entry, (e.line ++ "\n").toUTF8.toList =
      (e.line.toList ++ ['\n']).flatMap String.utf8EncodeChar := by
    intro e
    rw [Text.toList_toUTF8, String.toList_append]
    rfl
  rw [text, toList_foldl_write, ByteArray.toList_empty, List.nil_append, h, funext hencoded,
    ← List.flatMap_assoc, Text.decode_flatMap]

theorem warnings_of_holds (hplain : ∀ e ∈ entries, e.IsPlain) (h : Holds pieces entries) :
    (pieces.foldl write {}).warnings = entries.countP fun e => e.isWarning || e.holdsMark := by
  have hlines : (pieces.foldl write {}).lines =
      entries.map fun e => Text.dropReturn e.line.toList := by
    rw [lines, text_of_holds h]
    exact Text.lines_flatMap fun e he => (hplain e he).line
  show (pieces.foldl write {}).lines.countP isWarning = _
  rw [hlines, List.countP_map]
  refine List.countP_congr fun e he => ?_
  rw [Function.comp_apply, ← Entry.isWarning_line (hplain e he), isWarning, isWarning,
    occursIn_iff, occursIn_iff, Text.infix_dropReturn_iff (by decide)]

/-- The lines of other levels that count as warnings. -/
theorem countP_or (entries : List Entry) :
    (entries.countP fun e => e.isWarning || e.holdsMark) =
      entries.countP Entry.isWarning +
        entries.countP fun e => !e.isWarning && e.holdsMark := by
  induction entries with
  | nil => rfl
  | cons e entries ih =>
    rw [List.countP_cons, List.countP_cons, List.countP_cons, ih]
    cases e.isWarning <;> cases e.holdsMark <;> simp <;> omega

/-- What is counted as warnings, however the lines were cut into the pieces that were written: the
lines of that level, and with them the lines of every other level that have the mark behind the
level. So the count is that of the warnings exactly if there are no such lines. -/
theorem warnings_of_lines (hplain : ∀ e ∈ entries, e.IsPlain) (h : Holds pieces entries) :
    (pieces.foldl write {}).warnings = entries.countP Entry.isWarning +
        entries.countP (fun e => !e.isWarning && e.holdsMark) ∧
      ((pieces.foldl write {}).warnings = entries.countP Entry.isWarning ↔
        ∀ e ∈ entries, e.isWarning = false → e.holdsMark = false) := by
  have hcount := (warnings_of_holds hplain h).trans (countP_or entries)
  refine ⟨hcount, ?_⟩
  rw [hcount, Nat.add_eq_left, List.countP_eq_zero]
  refine forall₂_congr fun e _ => ?_
  cases e.isWarning <;> cases e.holdsMark <;> simp

section Sample

def sampleStamp : String := "2026-03-01T10:00:00.000000Z"

/-- A warning, and a join that is added under a name with the mark. -/
def sampleEvents : List Event := [.chained "größer" 1, .addedCoGroup "a WARN b" 2]

def sampleEntries : List Entry := sampleEvents.map fun e => e.entry sampleStamp

/-- The bytes of the lines, cut in the middle of a character. -/
def samplePieces : List ByteArray :=
  let bytes := sampleEntries.flatMap fun e => (e.line ++ "\n").toUTF8.toList
  [⟨(bytes.take 229).toArray⟩, ⟨(bytes.drop 229).toArray⟩]

theorem isPlain_sampleEntries : ∀ e ∈ sampleEntries, e.IsPlain := by
  have hbuilding : ∀ e ∈ sampleEvents, e.isOfBuilding = true :=
    List.forall_mem_cons.2 ⟨rfl, List.forall_mem_singleton.2 rfl⟩
  refine List.forall_mem_map.2 fun e he => ?_
  exact Event.isPlain_entry (by decide) (by decide) (hbuilding e he)

theorem holds_samplePieces : Holds samplePieces sampleEntries := by
  simp [Holds, samplePieces, Text.toList_bytes]

theorem countP_sampleEntries : sampleEntries.countP Entry.isWarning = 1 ∧
    sampleEntries.countP (fun e => !e.isWarning && e.holdsMark) = 1 := by
  have hmark : ((Event.addedCoGroup "a WARN b" 2).entry sampleStamp).holdsMark = true :=
    (Event.holdsMark_entry sampleStamp rfl rfl).trans (by decide)
  refine ⟨by decide, ?_⟩
  show List.countP _ [_, _] = 1
  rw [List.countP_cons_of_neg (by simp [Event.isWarning_entry, Event.isWarning, Event.level]),
    List.countP_cons_of_pos (by simp [hmark, Event.isWarning_entry, Event.isWarning, Event.level])]
  rfl

theorem warnings_of_lines_sample : (∀ e ∈ sampleEntries, e.IsPlain) ∧
    Holds samplePieces sampleEntries ∧ (samplePieces.foldl write {}).warnings = 2 ∧
    sampleEntries.countP Entry.isWarning = 1 ∧
    ∃ e ∈ sampleEntries, e.isWarning = false ∧ e.holdsMark = true := by
  obtain ⟨hcount, hexact⟩ := warnings_of_lines isPlain_sampleEntries holds_samplePieces
  obtain ⟨hwarnings, hother⟩ := countP_sampleEntries
  rw [hwarnings, hother] at hcount
  rw [hwarnings, hcount] at hexact
  refine ⟨isPlain_sampleEntries, holds_samplePieces, hcount, hwarnings, ?_⟩
  by_contra hnone
  push Not at hnone
  exact absurd (hexact.2 fun e he hlevel => Bool.eq_false_iff.2 (hnone e he hlevel)) (by decide)

/-- The name of a join is enough for its line to count as a warning. -/
theorem warnings_not_exact : ¬∀ (entries : List Entry) (pieces : List ByteArray),
    (∀ e ∈ entries, e.IsPlain) → Holds pieces entries →
      (pieces.foldl write {}).warnings = entries.countP Entry.isWarning := by
  intro hexact
  obtain ⟨hwarnings, hother⟩ := countP_sampleEntries
  have hcount := warnings_of_holds isPlain_sampleEntries holds_samplePieces
  rw [hexact _ _ isPlain_sampleEntries holds_samplePieces, countP_or, hwarnings, hother] at hcount
  exact absurd hcount (by decide)

end Sample

end Capture

end JoinPipeline.Log
