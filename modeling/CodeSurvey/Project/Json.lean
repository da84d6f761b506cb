import CodeSurvey.Outline.Reader
import CodeSurvey.Project.Summary

/-!
# Summaries as JSON

The record of a file has its own members and those of its outline in one object, so it is read from
an object only. In it, an empty object may stand beside the name of a kind as well as `null`.
-/

namespace CodeSurvey

open Json (Value Slot)

def Json.Value.asCount? (v : Value) : Option Nat :=
  v.asNaturalBelow? UInt64.size

namespace FileRecord

def toJson (f : FileRecord) : Value :=
  .record ([
    ("relativePath", .text f.path),
    ("language", .text f.language),
    ("lineCount", .natural f.lineCount),
    ("contentHash", .text f.contentHash)]
    ++ f.outline.members)

def fieldNames : List String :=
  ["relativePath", "language", "lineCount", "contentHash"] ++ Outline.fieldNames

def ofSlots? : List Slot → Option FileRecord
  | path :: language :: lineCount :: contentHash :: outline => do
    return {
      path := ← path.required Value.asText?
      language := ← language.required Value.asText?
      lineCount := ← lineCount.required Value.asCount?
      contentHash := ← contentHash.required Value.asText?
      outline := ← Outline.ofSlots? Value.isNullOrEmpty outline }
  | _ => none

def ofJson? : Value → Option FileRecord
  | .object members => (Slot.ofMembers? fieldNames members).bind ofSlots?
  | _ => none

end FileRecord

namespace FailedFile

def toJson (f : FailedFile) : Value :=
  .record [("path", .text f.path), ("message", .text f.message)]

def ofJson? (v : Value) : Option FailedFile := do
  match ← Slot.ofValue? ["path", "message"] v with
  | [path, message] =>
    return { path := ← path.required Value.asText?, message := ← message.required Value.asText? }
  | _ => none

end FailedFile

namespace LanguageTotal

def toJson (t : LanguageTotal) : Value :=
  .record [
    ("language", .text t.language),
    ("fileCount", .natural t.fileCount),
    ("lineCount", .natural t.lineCount)]

def ofJson? (v : Value) : Option LanguageTotal := do
  match ← Slot.ofValue? ["language", "fileCount", "lineCount"] v with
  | [language, fileCount, lineCount] =>
    return {
      language := ← language.required Value.asText?
      fileCount := ← fileCount.required Value.asCount?
      lineCount := ← lineCount.required Value.asCount? }
  | _ => none

end LanguageTotal

namespace Metadata

def toJson (d : Metadata) : Value :=
  .record [
    ("timestamp", .natural d.timestamp),
    ("parserVersion", .text d.parserVersion),
    ("projectName", .text d.projectName),
    ("rootDirectory", .text d.rootDirectory),
    ("totalFiles", .natural d.totalFiles),
    ("totalFunctions", .natural d.totalFunctions),
    ("totalClasses", .natural d.totalClasses),
    ("languages", .array (d.languages.map LanguageTotal.toJson))]

def ofJson? (v : Value) : Option Metadata := do
  match ← Slot.ofValue? ["timestamp", "parserVersion", "projectName", "rootDirectory", "totalFiles",
      "totalFunctions", "totalClasses", "languages"] v with
  | [timestamp, parserVersion, projectName, rootDirectory, totalFiles, totalFunctions, totalClasses,
      languages] =>
    return {
      timestamp := ← timestamp.required Value.asCount?
      parserVersion := ← parserVersion.required Value.asText?
      projectName := ← projectName.required Value.asText?
      rootDirectory := ← rootDirectory.required Value.asText?
      totalFiles := ← totalFiles.required Value.asCount?
      totalFunctions := ← totalFunctions.required Value.asCount?
      totalClasses := ← totalClasses.required Value.asCount?
      languages := ← languages.required (Value.asListOf? LanguageTotal.ofJson?) }
  | _ => none

end Metadata

namespace Summary

def toJson (s : Summary) : Value :=
  .record [
    ("metadata", s.metadata.toJson),
    ("files", .array (s.files.map FileRecord.toJson)),
    ("failures", .array (s.failures.map FailedFile.toJson)),
    ("skipped", .texts s.skipped)]

def ofJson? (v : Value) : Option Summary := do
  match ← Slot.ofValue? ["metadata", "files", "failures", "skipped"] v with
  | [metadata, files, failures, skipped] =>
    return {
      metadata := ← metadata.required Metadata.ofJson?
      files := ← files.required (Value.asListOf? FileRecord.ofJson?)
      failures := ← failures.required (Value.asListOf? FailedFile.ofJson?)
      skipped := ← skipped.required Value.asTexts? }
  | _ => none

end Summary

end CodeSurvey
