import CodeSurvey.Json.Printer
import CodeSurvey.Json.Reader
import CodeSurvey.Json.Slot
import CodeSurvey.Settings.Basic

/-!
# Settings as JSON

Settings are written as an object with all fields. They are read from an object with any of the
fields, or from an array of the first few; the others take their default values.
-/

namespace CodeSurvey

open Json (Value Slot)

namespace Json

def Value.asUInt32? (v : Value) : Option UInt32 :=
  (v.asNaturalBelow? UInt32.size).map UInt32.ofNat

def Value.asUInt64? (v : Value) : Option UInt64 :=
  (v.asNaturalBelow? UInt64.size).map UInt64.ofNat

end Json

namespace Settings

def fieldNames : List String := [
  "version", "root_dir", "include", "exclude", "max_file_size", "max_content_chars", "workers",
  "fail_fast", "extract_comments"]

def toJson (s : Settings) : Value :=
  .record [
    ("version", .natural s.version.toNat),
    ("root_dir", .text s.rootDir),
    ("include", .texts s.includes),
    ("exclude", .texts s.excludes),
    ("max_file_size", .natural s.maxFileSize.toNat),
    ("max_content_chars", .natural s.maxContentChars.toNat),
    ("workers", .natural s.workers.toNat),
    ("fail_fast", .bool s.failFast),
    ("extract_comments", .bool s.comments)]

def ofSlots? : List Slot → Option Settings
  | [version, rootDir, includes, excludes, maxFileSize, maxContentChars, workers, failFast,
      comments] => do
    let standard : Settings := {}
    return {
      version := ← version.withDefault standard.version Value.asUInt32?
      rootDir := ← rootDir.withDefault standard.rootDir Value.asText?
      includes := ← includes.withDefault standard.includes Value.asTexts?
      excludes := ← excludes.withDefault standard.excludes Value.asTexts?
      maxFileSize := ← maxFileSize.withDefault standard.maxFileSize Value.asUInt64?
      maxContentChars := ← maxContentChars.withDefault standard.maxContentChars Value.asUInt64?
      workers := ← workers.withDefault standard.workers Value.asUInt64?
      failFast := ← failFast.withDefault standard.failFast Value.asBool?
      comments := ← comments.withDefault standard.comments Value.asBool? }
  | _ => none

def ofJson? (v : Value) : Option Settings :=
  (Slot.ofValue? fieldNames v).bind ofSlots?

def print (s : Settings) : String :=
  s.toJson.pretty

def parse? (text : String) : Option Settings :=
  (Value.parse? text).bind ofJson?

end Settings

end CodeSurvey
