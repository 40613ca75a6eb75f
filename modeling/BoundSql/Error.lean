/-
Why a query cannot be built, compiled or run.

Every cause is a constructor. `Error.message` is the one place where causes
are put into words. A caller can hand in an error of its own, in its own words
(`reported`).
-/
import BoundSql.Binding.Kind
import BoundSql.Number.Integer
import BoundSql.Statement.Keyword

namespace BoundSql

inductive BindingKindError where
  | unknown (written : Text)
  | missing
  | ofNull
  deriving DecidableEq

inductive SelectorError where
  | unreadable (written : Text)
  | blankColumn
  | blankNode (column : Text)
  deriving DecidableEq

inductive CriterionError where
  | groupWithOperand
  | groupAsOperand
  | groupAsColumn
  | blankOperator
  | twoValuesNeeded (operator column : Text)
  | conditionNotOn
  | conditionMissing (kind : JoinKind)
  | conditionOutsideJoin
  | reported (message : Text)
  deriving DecidableEq

inductive StatementError where
  | groupSelected
  | groupOrderedBy
  | groupGroupedBy
  | blankTable
  | tableShape
  | unknownJoin (written : Text)
  | blankKey (key : Text)
  | differentKeys
  | pageTooFar (page size : UInt64)
  | reported (message : Text)
  deriving DecidableEq

inductive QueryKindError where
  | unknown (written : Text)
  | needsData (kind : QueryKind)
  deriving DecidableEq

/-- What went wrong in running a query: the executor's own report, or a count
that is no natural number. -/
inductive ExecutionError where
  | reported (message : Text)
  | noCount (shown : Text)
  deriving DecidableEq

inductive ConfigError where
  | unreadable
  | wrongType (key : Text)
  | reported (message : Text)
  deriving DecidableEq

/-- Why a query could not be built, compiled or run. -/
inductive Error where
  | noTable
  | noData
  | bindingKind (cause : BindingKindError)
  | selector (cause : SelectorError)
  | criterion (cause : CriterionError)
  | statement (cause : StatementError)
  | queryKind (cause : QueryKindError)
  | execution (cause : ExecutionError)
  | config (cause : ConfigError)
  deriving DecidableEq

/-! ## Words -/

def BindingKindError.message : BindingKindError → Text
  | .unknown written => written
  | .missing => "a binding kind is required"
  | .ofNull => "cannot infer a kind for NULL"

def SelectorError.message : SelectorError → Text
  | .unreadable written => written
  | .blankColumn => "selector column is empty"
  | .blankNode column =>
    "selector on '" ++ column ++ "' needs at least one non-empty node"

def CriterionError.message : CriterionError → Text
  | .groupWithOperand => "a nested group cannot carry a value"
  | .groupAsOperand => "a nested group cannot be compared against"
  | .groupAsColumn => "a nested criteria group cannot be used as a column"
  | .blankOperator => "criteria operator is empty"
  | .twoValuesNeeded operator column => operator ++ " on '" ++ column ++ "' needs two values"
  | .conditionNotOn => "join conditions must be ON criteria"
  | .conditionMissing kind => kind.keyword ++ " JOIN needs at least one ON condition"
  | .conditionOutsideJoin => "ON criteria belong to a join statement"
  | .reported message => message

def StatementError.message : StatementError → Text
  | .groupSelected => "a nested group cannot be selected"
  | .groupOrderedBy => "cannot order by a nested group"
  | .groupGroupedBy => "cannot group by a nested group"
  | .blankTable => "table name is empty"
  | .tableShape => "a table must be a name or a raw expression"
  | .unknownJoin written => "unknown join type '" ++ written ++ "'"
  | .blankKey key => "row key '" ++ key ++ "' is empty"
  | .differentKeys => "every row of a batch insert must have the same keys"
  | .pageTooFar page size =>
    "page " ++ natText page.toNat ++ " of size " ++ natText size.toNat ++ " overflows the offset"
  | .reported message => message

def QueryKindError.message : QueryKindError → Text
  | .unknown written => written
  | .needsData kind => kind.name ++ " needs data or a function; use its dedicated compile method"

def ExecutionError.message : ExecutionError → Text
  | .reported message => message
  | .noCount shown => "COUNT returned " ++ shown

def ConfigError.message : ConfigError → Text
  | .unreadable => "failed to parse config"
  | .wrongType key => "wrong type for " ++ key
  | .reported message => message

def Error.message : Error → Text
  | .noTable => "No table specified"
  | .noData => "No data given"
  | .bindingKind cause => "Invalid binding kind: " ++ cause.message
  | .selector cause => "Invalid JSON selector: " ++ cause.message
  | .criterion cause => "Malformed criteria: " ++ cause.message
  | .statement cause => "Invalid statement: " ++ cause.message
  | .queryKind cause => "Unsupported query type: " ++ cause.message
  | .execution cause => "Execution error: " ++ cause.message
  | .config cause => "Invalid configuration: " ++ cause.message

/-- Whether an error comes from running a query rather than from the query. -/
def Error.isExecution : Error → Bool
  | .execution _ => true
  | _ => false

end BoundSql
