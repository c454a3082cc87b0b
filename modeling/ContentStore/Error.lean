import ContentStore.Sql.Scan
import ContentStore.Sql.Statement
/-!
# Errors of the store

The causes for which an operation fails, and their texts.  A statement that names no table of the
site, that is of no known form, or whose tokens do not fit is *unsupported*: a lenient caller takes
it for a selection that finds nothing.
-/

namespace ContentStore

namespace Sql

/-- A statement of no known form. -/
inductive Unsupported where
  | empty
  | startsWith (token : Token)
  | verb (name : String)
  | insertWithoutValues
  /-- A change or deletion that does not name its record by the identifier. -/
  | withoutId (verb : String)
deriving DecidableEq, Repr

/-- What a statement should have gone on with. -/
inductive Expectation where
  | keyword (name : String)
  | mark (token : Token)
  | value
  | numberAfterMinus
  | identifier
  | identifierAfterPeriod
deriving DecidableEq, Repr

/-- A statement whose tokens do not fit. -/
inductive Malformed where
  | scan (fault : ScanFault) (position : Position)
  | expected (what : Expectation) (found : Option Token)
  | unsupportedValue (word : String)
  | invalidNumber (text : String)
  | columnCount (columns values : Nat)
  | trailing (tokens : List Token)
deriving DecidableEq, Repr

/-- The text of a statement of no known form. -/
def Unsupported.message : Unsupported → String
  | empty => "empty statement"
  | startsWith token => "statement starts with '" ++ token.toText ++ "'"
  | verb name => name ++ " statements are not supported"
  | insertWithoutValues => "INSERT requires a VALUES clause"
  | withoutId v => v ++ " requires WHERE id = ?"

/-- The text of an expectation. -/
def Expectation.message : Expectation → String
  | keyword name => name
  | mark token => "'" ++ token.toText ++ "'"
  | value => "a value"
  | numberAfterMinus => "a number after '-'"
  | identifier => "identifier"
  | identifierAfterPeriod => "identifier after '.'"

/-- The text of a statement whose tokens do not fit. -/
def Malformed.message : Malformed → String
  | scan fault position => fault.message ++ position.toText
  | expected what found => "expected " ++ what.message ++ ", found " ++ Token.describe found
  | unsupportedValue word => "unsupported value: " ++ word
  | invalidNumber text => "invalid number: " ++ text
  | columnCount columns values =>
    "INSERT names " ++ toString columns ++ " columns but supplies " ++ toString values ++ " values"
  | trailing tokens => "unexpected trailing input: " ++ Token.render tokens

end Sql

/-- The cause for which an operation fails. -/
inductive StoreError where
  | unknownTable (name : String)
  | unsupported (reason : Sql.Unsupported)
  | malformed (reason : Sql.Malformed)
  /-- The configuration file cannot be understood. -/
  | config
  /-- A file or folder cannot be read or written. -/
  | io
  /-- A new file cannot take the place of the old one.  The new file, of these bytes, goes with the
  error and is removed with it. -/
  | persist (bytes : ByteArray)
  /-- A record does not have the shape that its reader asks for. -/
  | json
  /-- A value that is no object cannot become a record. -/
  | notAnObject (table : Table) (value : Json)

namespace StoreError

/-- The text of an error; of errors that come from outside the store only the beginning. -/
def message : StoreError → String
  | unknownTable name => "Unknown table: " ++ name
  | unsupported reason => "Unsupported statement: " ++ reason.message
  | malformed reason => "SQL parse error: " ++ reason.message
  | config => "Config error: "
  | io => "IO error: "
  | persist _ => "Failed to replace table file: "
  | json => "JSON error: "
  | notAnObject table value =>
    "Cannot store non-object value in " ++ table.name ++ ": " ++ value.toText

/-- The statement is unsupported. -/
def isUnsupported : StoreError → Bool
  | unknownTable _ => true
  | unsupported _ => true
  | malformed _ => true
  | _ => false

end StoreError

end ContentStore
