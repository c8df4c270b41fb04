import Mathlib.Data.List.Sort
import PersonalAssistant.Lib.Effect
import PersonalAssistant.Lib.Text
import PersonalAssistant.Domain.Platform

/-!
# Discovering migrations

`discoverMigrations` reads a directory of SQL files: every file name is `NNNN_name.sql`, no file owns
its transaction, and the versions count from one without a gap. The scan for transaction control walks
the text past comments, quoted values and dollar quotes, and looks at the first two words of every
statement.
-/
namespace PersonalAssistant

open Lib

structure Migration where
  version : Int
  name : String
  checksum : String
  sql : String
  filename : String
deriving DecidableEq

/-- A row of the history table. -/
structure AppliedMigration where
  version : Int
  name : String
  checksum : String
  appliedAt : Instant
deriving DecidableEq

/-- Why a migration file or sequence is refused. -/
inductive MigrationDefinitionFault where
  | noDirectory
  | invalidFilename (filename : String)
  | notUtf8 (filename : String)
  | empty (filename : String)
  | transactionControl (filename : String)
  | noFiles
  | notContiguous (versions : List Int)
deriving DecidableEq

/-- Why a persisted history is incompatible with the local files. -/
inductive MigrationHistoryFault where
  | duplicateVersion (version : Int)
  | unknownApplied (version : Int) (name : String)
  | nameChanged (version : Int) (recorded current : String)
  | gapBefore (version : Int) (name : String)
  | checksumMismatch (version : Int) (name recorded current : String)
deriving DecidableEq

inductive MigrationError where
  | valueError (field value : String)
  | configuration (message : String)
  | definition (fault : MigrationDefinitionFault)
  | history (fault : MigrationHistoryFault)
  /-- The migration failed and its transaction was rolled back, as the runner reports it. -/
  | execution (version : Int) (name : String)
  | lockNotHeld
  /-- An exception of the driver or of the file system. -/
  | external (name : String)
deriving DecidableEq

/-! ## Identifiers and file names -/

def isIdentifierStart (c : Char) : Bool :=
  ('A' ≤ c && c ≤ 'Z') || ('a' ≤ c && c ≤ 'z') || c == '_'

def isIdentifierChar (c : Char) : Bool := isIdentifierStart c || ('0' ≤ c && c ≤ '9')

/-- `[A-Za-z_][A-Za-z0-9_]*`, of at most 63 bytes. -/
def isIdentifier (value : String) : Bool :=
  match value.toList with
  | [] => false
  | c :: cs => isIdentifierStart c && cs.all isIdentifierChar && value.length ≤ 63

def validateIdentifier (value field : String) : Except MigrationError String :=
  if isIdentifier value then .ok value else .error (.valueError field value)

def isNameStart (c : Char) : Bool := 'a' ≤ c && c ≤ 'z'

def isNameChar (c : Char) : Bool := isNameStart c || ('0' ≤ c && c ≤ '9') || c == '_'

def isDecimal (c : Char) : Bool := '0' ≤ c && c ≤ '9'

/-- The suffix of a migration file. -/
def sqlSuffix : List Char := ['.', 's', 'q', 'l']

def decimalValue (digits : List Char) : Nat :=
  digits.foldl (fun n c => 10 * n + (c.toNat - '0'.toNat)) 0

/-- `NNNN_name.sql`: the version and the name. -/
def matchFilename (filename : String) : Option (Int × String) :=
  match filename.toList with
  | a :: b :: c :: d :: '_' :: rest =>
    let name := rest.take (rest.length - sqlSuffix.length)
    if [a, b, c, d].all isDecimal && rest.drop (rest.length - sqlSuffix.length) == sqlSuffix &&
        name.head?.any isNameStart && name.all isNameChar then
      some (decimalValue [a, b, c, d], String.ofList name)
    else none
  | _ => none

/-! ## Transaction control -/

/-- Behind the closing delimiter of a quoted value; a doubled delimiter stands for itself. -/
def afterQuotedValue (delimiter : Char) : List Char → List Char
  | [] => []
  | c :: cs =>
    if c ≠ delimiter then afterQuotedValue delimiter cs
    else match cs with
      | [] => []
      | d :: ds => if d = delimiter then afterQuotedValue delimiter ds else d :: ds

/-- Behind a block comment that is open `depth` times. -/
def afterBlockComment : Nat → List Char → List Char
  | 0, cs => cs
  | _ + 1, [] => []
  | depth + 1, '/' :: '*' :: cs => afterBlockComment (depth + 2) cs
  | depth + 1, '*' :: '/' :: cs => afterBlockComment depth cs
  | depth + 1, _ :: cs => afterBlockComment (depth + 1) cs

/-- Behind the end of the line. -/
def afterLineComment (cs : List Char) : List Char := (cs.dropWhile (· ≠ '\n')).drop 1

/-- Behind the first occurrence of `delimiter`, or at the end. -/
def afterDelimiter (delimiter : List Char) : List Char → List Char
  | [] => []
  | c :: cs =>
    if delimiter.isPrefixOf (c :: cs) then (c :: cs).drop delimiter.length
    else afterDelimiter delimiter cs

/-- The delimiter of a dollar quote that opens behind a dollar sign. -/
def dollarTag (cs : List Char) : Option (List Char) :=
  let tag := cs.takeWhile isIdentifierChar
  if (cs.drop tag.length).head? = some '$' ∧ tag.head?.all isIdentifierStart then
    some ('$' :: tag ++ ['$'])
  else none

/-- The first two words of every statement, upper case. The fuel is the length of the text. -/
def statementPrefixes : Nat → List String → List Char → List (List String)
  | 0, _, _ => []
  | _ + 1, words, [] => if words.isEmpty then [] else [words]
  | fuel + 1, words, c :: cs =>
    if c = '-' ∧ cs.head? = some '-' then statementPrefixes fuel words (afterLineComment cs)
    else if c = '/' ∧ cs.head? = some '*' then
      statementPrefixes fuel words (afterBlockComment 1 (cs.drop 1))
    else if c = '\'' ∨ c = '"' then statementPrefixes fuel words (afterQuotedValue c cs)
    else if c = ';' then
      (if words.isEmpty then [] else [words]) ++ statementPrefixes fuel [] cs
    else if isIdentifierStart c then
      let word := c :: cs.takeWhile isIdentifierChar
      let words := if words.length < 2 then words ++ [String.ofList (word.map Char.toUpper)] else words
      statementPrefixes fuel words (cs.dropWhile isIdentifierChar)
    else match (if c = '$' then dollarTag cs else none) with
      | some delimiter =>
        statementPrefixes fuel words (afterDelimiter delimiter (cs.drop (delimiter.length - 1)))
      | none => statementPrefixes fuel words cs

def transactionCommands : List String :=
  ["ABORT", "BEGIN", "COMMIT", "END", "ROLLBACK", "SAVEPOINT"]

def controlsTransaction (words : List String) : Bool :=
  words.head?.any transactionCommands.contains ||
    [["PREPARE", "TRANSACTION"], ["RELEASE", "SAVEPOINT"], ["START", "TRANSACTION"]].contains words

def containsTransactionControl (sql : String) : Bool :=
  (statementPrefixes (sql.length + 1) [] sql.toList).any controlsTransaction

/-! ## The directory -/

/-- A file of the directory; the content is absent when it is not UTF-8. -/
structure MigrationFile where
  name : String
  content : Option String

/-- The files of the migration directory, if there is one. -/
abbrev MigrationDirectory := Option (List MigrationFile)

/-- One turn of the loop of `discover_migrations`. -/
def readMigration (platform : Platform) (file : MigrationFile) : Except MigrationError Migration := do
  match matchFilename file.name with
  | none => .error (.definition (.invalidFilename file.name))
  | some (version, name) =>
    let name ← validateIdentifier name "migration name"
    match file.content with
    | none => .error (.definition (.notUtf8 file.name))
    | some sql =>
      if strip sql = "" then .error (.definition (.empty file.name))
      else if containsTransactionControl sql then
        .error (.definition (.transactionControl file.name))
      else
        return {
          version := version
          name := name
          checksum := (platform.sha256 sql).text
          sql := sql
          filename := file.name }

/-- Files ending in `.sql`, by name. -/
def sqlFiles (files : List MigrationFile) : List MigrationFile :=
  (files.filter fun f => sqlSuffix.isSuffixOf f.name.toList).insertionSort fun a b => a.name ≤ b.name

/-- The versions one, two, up to the length of the sequence. -/
def Contiguous (migrations : List Migration) : Prop :=
  migrations.map Migration.version = (List.range' 1 migrations.length).map Int.ofNat

instance (migrations : List Migration) : Decidable (Contiguous migrations) :=
  inferInstanceAs (Decidable (_ = _))

def discoverMigrations (platform : Platform) (directory : MigrationDirectory) :
    Except MigrationError (List Migration) := do
  match directory with
  | none => .error (.definition .noDirectory)
  | some files =>
    let migrations ← (sqlFiles files).mapM (readMigration platform)
    if migrations = [] then .error (.definition .noFiles)
    else if Contiguous migrations then return migrations
    else .error (.definition (.notContiguous (migrations.map Migration.version)))

/-! ## Accepted sequences -/

theorem contiguous_of_discover {platform : Platform} {directory : MigrationDirectory}
    {migrations : List Migration} (h : discoverMigrations platform directory = .ok migrations) :
    Contiguous migrations := by
  unfold discoverMigrations at h
  cases directory with
  | none => cases h
  | some files =>
    obtain ⟨ms, -, h⟩ := except_bind_eq_ok.mp h
    split_ifs at h with _ hc
    cases h
    exact hc

/-- The versions of an accepted sequence increase. -/
theorem Contiguous.versions_lt {migrations : List Migration} (h : Contiguous migrations) :
    migrations.Pairwise fun a b => a.version < b.version := by
  have hrange : ((List.range' 1 migrations.length).map Int.ofNat).Pairwise (· < ·) := by
    rw [List.pairwise_map]
    exact (List.pairwise_lt_range' 1 (by decide)).imp fun hlt => Int.ofNat_lt.mpr hlt
  rw [← h, List.pairwise_map] at hrange
  exact hrange

theorem Contiguous.nodup_versions {migrations : List Migration} (h : Contiguous migrations) :
    (migrations.map Migration.version).Nodup := by
  rw [List.nodup_iff_pairwise_ne, List.pairwise_map]
  exact h.versions_lt.imp fun hlt => hlt.ne

end PersonalAssistant
