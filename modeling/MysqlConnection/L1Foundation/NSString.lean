import Mathlib.Algebra.Order.Ring.Nat
import Mathlib.Data.List.Basic

/-!
# Strings and the two record classes

An `NSString` is the list of its characters; `ns "…"` is the literal `@"…"`.
`stringWithFormat` with `%@` is concatenation, so a format is written as the
concatenation of its fixed parts and its arguments.
-/
namespace MysqlConnection

abbrev NSString := List Char

/-- For the membership of a name in a list of names. -/
instance : LawfulBEq NSString := inferInstance

/-- The Objective-C literal `@"…"`. -/
def ns (s : String) : NSString := s.toList

/-- `componentsSeparatedByString:@","` -/
def components (s : NSString) : List NSString := s.splitOn ','

/-- `componentsJoinedByString:` -/
def joined (sep : NSString) (xs : List NSString) : NSString := sep.intercalate xs

/-- `intValue`: leading blanks, a sign, digits; saturates at 32 bits and is 0
where there are no digits. -/
def intValue (s : NSString) : Int :=
  let t := s.dropWhile Char.isWhitespace
  let digits (d : NSString) : Int := Nat.ofDigitChars 10 (d.takeWhile Char.isDigit) 0
  if t.head? = some '-' then max (-2 ^ 31) (-digits t.tail)
  else if t.head? = some '+' then min (2 ^ 31 - 1) (digits t.tail)
  else min (2 ^ 31 - 1) (digits t)

theorem intValue_bounds (s : NSString) : -2 ^ 31 ≤ intValue s ∧ intValue s ≤ 2 ^ 31 - 1 := by
  unfold intValue
  simp only
  split
  · omega
  · split <;> omega

/-- mirrors Obj_Database.h:11-20 -/
structure Obj_Database where
  dbId : NSString
  dbName : NSString
  dbHost : NSString
  dbUserName : NSString
  dbPasswd : NSString
  dbPort : NSString
  dbDescription : NSString
  dbDateStr : NSString
  deriving DecidableEq, Repr

/-- mirrors Obj_Database.h:22-30 -/
structure Obj_Query where
  query_Id : NSString
  query_dbId : NSString
  query_dbName : NSString
  query_tableName : NSString
  query_columns : NSString
  query_searchRule : NSString
  query_showName : NSString
  deriving DecidableEq, Repr

end MysqlConnection
