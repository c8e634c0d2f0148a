import CrashMonitor.Lib.CompactText
import CrashMonitor.Session.Files

/-!
# The text of a session record

`serde_json::to_string` of a `SessionRecord` (`postprocessors/session_recorder.rs`):
one object on one line. Control characters of a text are escaped, so a record
never has a newline of its own.
-/

namespace CrashMonitor.Session

open Lib.CompactText Lib.Lines Store List

/-! ## Texts -/

/-- A character of a JSON text, as serde writes it. -/
def escapeChar (c : Char) : Text :=
  if c = '"' then ['\\', '"']
  else if c = '\\' then ['\\', '\\']
  else if c = '\n' then ['\\', 'n']
  else if c = '\r' then ['\\', 'r']
  else if c = '\t' then ['\\', 't']
  else if c = '\x08' then ['\\', 'b']
  else if c = '\x0c' then ['\\', 'f']
  else if c.toNat < 0x20 then
    ['\\', 'u', '0', '0', Nat.digitChar (c.toNat / 16), Nat.digitChar (c.toNat % 16)]
  else [c]

def quoted (text : String) : Text := '"' :: (text.toList.flatMap escapeChar ++ ['"'])

/-! ## Members -/

def member (key : String) (value : Text) : Text := quoted key ++ ':' :: value

/-- `skip_serializing_if = "Option::is_none"`. -/
def optionalMember (key : String) (value : Option String) : List Text :=
  (value.map fun text => member key (quoted text)).toList

def commaSeparated : List Text → Text
  | [] => []
  | [part] => part
  | part :: rest => part ++ ',' :: commaSeparated rest

def recordMembers (record : SessionRecord) : List Text :=
  [member "id" (quoted record.id), member "start" (quoted record.start),
    member "end" (quoted record.finish), member "status" (quoted record.status),
    member "duration_s" (writeNat record.durationS)] ++
    optionalMember "report_id" record.reportId ++ optionalMember "report" record.report ++
    optionalMember "manifest" record.manifest

def renderRecord (record : SessionRecord) : String :=
  String.ofList ('\x7b' :: (commaSeparated (recordMembers record) ++ ['\x7d']))

/-! ## One line -/

theorem digitChar_ne_newline {n} (h : n < 16) : Nat.digitChar n ≠ '\n' := by
  revert n
  decide

theorem newline_not_mem_escapeChar {c} : '\n' ∉ escapeChar c := by
  unfold escapeChar
  split_ifs with h1 h2 h3 h4 h5 h6 h7 h8
  iterate 7 decide
  · have hhigh : Nat.digitChar (c.toNat / 16) ≠ '\n' := digitChar_ne_newline (by omega)
    have hlow : Nat.digitChar (c.toNat % 16) ≠ '\n' :=
      digitChar_ne_newline (Nat.mod_lt _ (by decide))
    simp [hhigh.symm, hlow.symm]
  · rw [mem_singleton]
    exact fun heq => h3 heq.symm

theorem newline_not_mem_quoted {text} : '\n' ∉ quoted text := by
  have hchars : '\n' ∉ text.toList.flatMap escapeChar := by
    intro hmem
    obtain ⟨c, -, hc⟩ := mem_flatMap.mp hmem
    exact newline_not_mem_escapeChar hc
  simp [quoted, hchars]

theorem newline_not_mem_member {value key} (h : '\n' ∉ value) : '\n' ∉ member key value := by
  simp [member, newline_not_mem_quoted, h]

theorem newline_not_mem_writeNat {n} : '\n' ∉ writeNat n := by
  intro hmem
  have hdigit : '\n'.isDigit = true := isDigit_of_mem_writeNat hmem
  cases hdigit

theorem newline_not_mem_optionalMember {key value text} (h : text ∈ optionalMember key value) :
    '\n' ∉ text := by
  cases value with
  | none => simp [optionalMember] at h
  | some value =>
    simp only [optionalMember, Option.map_some, Option.toList_some, mem_singleton] at h
    rw [h]
    exact newline_not_mem_member newline_not_mem_quoted

theorem newline_not_mem_commaSeparated {parts}
    (h : ∀ part ∈ parts, '\n' ∉ part) : '\n' ∉ commaSeparated parts := by
  induction parts with
  | nil => simp [commaSeparated]
  | cons part rest ih =>
    have hpart : '\n' ∉ part := h part mem_cons_self
    have hrest : '\n' ∉ commaSeparated rest := ih fun part hmem => h part (mem_cons_of_mem _ hmem)
    cases rest with
    | nil => exact hpart
    | cons next rest =>
      rw [commaSeparated]
      · simp [hpart, hrest]
      · simp

/-- A record is one line. -/
theorem newline_not_mem_renderRecord {record} : '\n' ∉ (renderRecord record).toList := by
  have hmembers : '\n' ∉ commaSeparated (recordMembers record) := by
    apply newline_not_mem_commaSeparated
    intro part hpart
    simp only [recordMembers, mem_append] at hpart
    rcases hpart with ((hfixed | hid) | hreport) | hmanifest
    · simp only [mem_cons, not_mem_nil, or_false] at hfixed
      rcases hfixed with rfl | rfl | rfl | rfl | rfl
      iterate 4 exact newline_not_mem_member newline_not_mem_quoted
      exact newline_not_mem_member newline_not_mem_writeNat
    · exact newline_not_mem_optionalMember hid
    · exact newline_not_mem_optionalMember hreport
    · exact newline_not_mem_optionalMember hmanifest
  unfold renderRecord
  rw [String.toList_ofList, mem_cons, mem_append, not_or, not_or]
  exact ⟨by decide, hmembers, by decide⟩

theorem newline_not_mem_recordBytes (record : SessionRecord) :
    newline ∉ textBytes (renderRecord record) := by
  apply Utf8.ascii_not_mem_encode (by decide)
  intro c hc hnewline
  have heq : c = '\n' := Char.toNat_inj.mp hnewline
  rw [heq] at hc
  exact newline_not_mem_renderRecord hc

end CrashMonitor.Session
