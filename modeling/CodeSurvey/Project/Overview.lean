import CodeSurvey.Project.Summary

/-!
# Overviews

A summary as a short text: the totals, the languages and the failures, if there are any.
-/

namespace CodeSurvey

def LanguageTotal.line (t : LanguageTotal) : String :=
  s!"    {t.language}: {t.fileCount} files, {t.lineCount} lines\n"

def FailedFile.line (f : FailedFile) : String :=
  s!"    {f.path}: {f.message}\n"

namespace Summary

/-- A headed list of lines, nothing if it is empty. -/
def headed (heading : String) (lines : List String) : String :=
  if lines.isEmpty then "" else s!"\n  {heading}:\n" ++ String.join lines

def overview (s : Summary) : String :=
  let d := s.metadata
  s!"{d.projectName} ({d.rootDirectory})\n"
    ++ s!"  Files:      {d.totalFiles}\n"
    ++ s!"  Functions:  {d.totalFunctions}\n"
    ++ s!"  Classes:    {d.totalClasses}\n"
    ++ headed "Languages" (d.languages.map LanguageTotal.line)
    ++ headed "Failures" (s.failures.map FailedFile.line)

end Summary

end CodeSurvey
