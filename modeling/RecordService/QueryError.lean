namespace RecordService

inductive QueryError where
  | invalidPointer (text : String)
  | invalidWhere (detail : String)
  | unsupportedOperator (key : String)
  | invalidOperand (detail : String)
  | tooDeep (depth limit : Nat)
  | invalidSortKey (text : String)
  | invalidPageSize (size : String)
  | invalidOffset (offset : String)
  | conflictingForms (supplied : String)
  | missingForm
  | unreadable (detail : String)
deriving DecidableEq, Repr

def QueryError.message : QueryError → String
  | .invalidPointer text => "Invalid JSON pointer: " ++ text
  | .invalidWhere detail => "Invalid WHERE clause: " ++ detail
  | .unsupportedOperator key => "Unsupported operator: " ++ key
  | .invalidOperand detail => "Invalid operator data: " ++ detail
  | .tooDeep depth limit =>
    "Filter nesting depth " ++ toString depth ++ " exceeds maximum " ++ toString limit
  | .invalidSortKey text => "Invalid sort key: " ++ text
  | .invalidPageSize size => "Invalid page size: " ++ size
  | .invalidOffset offset => "Invalid offset: " ++ offset
  | .conflictingForms supplied => "Conflicting query parameters: " ++ supplied
  | .missingForm =>
    "Query request must specify one of a query id, a query filter or a query expression"
  | .unreadable detail => "JSON parsing error: " ++ detail

end RecordService
