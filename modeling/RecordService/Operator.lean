namespace RecordService

inductive Operator where
  | eq
  | ne
  | gt
  | ge
  | lt
  | le
  | like
  | likeAnyCase
  | oneOf
  | noneOf
  | between
deriving DecidableEq, Repr

namespace Operator

def all : List Operator :=
  [.eq, .ne, .gt, .ge, .lt, .le, .like, .likeAnyCase, .oneOf, .noneOf, .between]

def key : Operator → String
  | .eq => "$eq"
  | .ne => "$ne"
  | .gt => "$gt"
  | .ge => "$gte"
  | .lt => "$lt"
  | .le => "$lte"
  | .like => "$like"
  | .likeAnyCase => "$ilike"
  | .oneOf => "$in"
  | .noneOf => "$nin"
  | .between => "$between"

def keyword : Operator → String
  | .eq => "eq"
  | .ne => "ne"
  | .gt => "gt"
  | .ge => "ge"
  | .lt => "lt"
  | .le => "le"
  | .like => "like"
  | .likeAnyCase => "ilike"
  | .oneOf => "in"
  | .noneOf => "nin"
  | .between => "between"

/-- `$neq` is a second spelling of `$ne`. -/
def ofKey? (key : String) : Option Operator :=
  if key = "$neq" then some .ne else all.find? (·.key = key)

end Operator

end RecordService
