import CodeSurvey.Language.Grammar
import CodeSurvey.Text.Lines

/-!
# Settings

What a project's survey looks at, its limits, and how it runs.
-/

namespace CodeSurvey

/-- What is passed over by default: dependencies, version control, build output, editors' folders,
lock files and binary files. -/
def standardExcludes : List String := [
  "**/node_modules/**", "**/.git/**", "**/.svn/**", "**/.hg/**", "**/.repolens/**", "**/dist/**",
  "**/build/**", "**/out/**", "**/target/**", "**/coverage/**", "**/.next/**", "**/.nuxt/**",
  "**/.cache/**", "**/__pycache__/**", "**/.pytest_cache/**", "**/venv/**", "**/.venv/**",
  "**/vendor/**", "**/.idea/**", "**/.vscode/**", "**/*.min.js", "**/*.min.css", "**/*.map",
  "**/package-lock.json", "**/yarn.lock", "**/pnpm-lock.yaml", "**/Cargo.lock", "**/.env",
  "**/.env.*", "**/.DS_Store", "**/*.log",
  "**/*." ++ Text.inBraces "png,jpg,jpeg,gif,svg,ico,webp",
  "**/*." ++ Text.inBraces "mp4,mp3,wav,pdf,zip,tar,gz,rar,7z",
  "**/*." ++ Text.inBraces "exe,dll,so,dylib,bin,class,jar,pyc,o"]

/-- Every file that has a grammar. -/
def standardIncludes : List String :=
  Grammar.extensions.map ("**/*." ++ ·)

structure Settings where
  version : UInt32 := 1
  rootDir : String := ""
  /-- Globs of the files that are looked at. -/
  includes : List String := standardIncludes
  /-- Globs of the files that are not, even if they are in `includes`. -/
  excludes : List String := standardExcludes
  /-- In octets. -/
  maxFileSize : UInt64 := 1048576
  /-- In characters. -/
  maxContentChars : UInt64 := 30000
  /-- Zero for one per processor. -/
  workers : UInt64 := 0
  failFast : Bool := false
  comments : Bool := true
  deriving DecidableEq, Repr

end CodeSurvey
