import Artha.Laravel.Validator

/-!
# The export of transactions

`TransactionsExport` for the spreadsheet and `exports/transactions.blade.php` for the PDF, on the
records they are given.  What PHP's formatting of numbers and dates prints is a field of `Formats`.
The framework raises a warning as an exception, so that reading a key that is not there ends the
export.
-/

namespace Artha.Exports

open Php Laravel

/-- The texts that PHP prints. -/
structure Formats where
  /-- The conversion of a double to a string. -/
  floatToString : UInt64 → String
  /-- `number_format($v, 2, ',', '.')`, of a number. -/
  numberFormat : Value → String
  numberFormat_zero : numberFormat (.int 0) = "0,00"
  /-- `date('Y-m-d H:i:s', strtotime($s))`. -/
  date : String → String

variable (F : Formats)

/-- `number_format($v, 2, ',', '.')`. -/
def number_format (v : Value) : Except Throwable String :=
  match v with
  | .bool _ => .ok (F.numberFormat v)
  | v =>
    if isNumeric v then .ok (F.numberFormat v)
    else .error (.error "number_format(): Argument #1 ($num) must be of type float")

/-- `$v ? date('Y-m-d H:i:s', strtotime($v)) : ''`. -/
def dateOrEmpty (v : Value) : Except Throwable String :=
  if v.truthy then (v.toStringParam F.floatToString).map F.date else .ok ""

/-! ### `TransactionsExport` -/

def array (transactions : List Value) : List Value := transactions

def headings : List String :=
  ["Transaction ID", "Customer Name", "Total Amount", "Status", "Created At", "Updated At"]

def map (transaction : Value) : Except Throwable (List Value) := do
  let amount ← number_format F (transaction.getD "total_amount" (.int 0))
  -- read without `??`
  let created ← dateOrEmpty F (← transaction.read "created_at")
  let updated ← dateOrEmpty F (← transaction.read "updated_at")
  return [transaction.getD "transaction_id" (.str ""), transaction.getD "customer_name" (.str ""),
    .str ("Rp " ++ amount), transaction.getD "status" (.str ""), .str created, .str updated]

/-- The rows of the spreadsheet. -/
def spreadsheet (transactions : List Value) : Except Throwable (List (List Value)) :=
  (array transactions).mapM (map F)

/-! ### The view -/

/-- What `e` writes for a character. -/
def escapeChar (c : Char) : List Char :=
  if c = '&' then "&amp;".toList
  else if c = '<' then "&lt;".toList
  else if c = '>' then "&gt;".toList
  else if c = '\x22' then "&quot;".toList
  else if c = '\x27' then "&#039;".toList
  else [c]

/-- `e($text)`. -/
def e (text : String) : String := String.ofList (text.toList.flatMap escapeChar)

/-- `{{ $v }}`. -/
def echo (v : Value) : Except Throwable String := (v.toStringParam F.floatToString).map e

/-- The contents of the cells that the view writes for a record. -/
def viewRow (transaction : Value) : Except Throwable (List String) := do
  let id ← echo F (transaction.getD "transaction_id" (.str ""))
  let name ← echo F (transaction.getD "customer_name" (.str ""))
  let amount ← number_format F (transaction.getD "total_amount" (.int 0))
  let status ← echo F (transaction.getD "status" (.str ""))
  let created ← dateOrEmpty F (← transaction.read "created_at")
  return [id, name, "Rp " ++ e amount, status, e created]

/-- The rows of the table in the PDF. -/
def view (transactions : List Value) : Except Throwable (List (List String)) :=
  transactions.mapM (viewRow F)

/-- The markup of a row.  The line break behind `@foreach` is PHP's. -/
def rowMarkup (cells : List String) : String :=
  "            <tr>" ++
    String.join (cells.map fun cell => "\n                <td>" ++ cell ++ "</td>") ++
    "\n            </tr>\n            "

/-- What the loop of the view prints. -/
def tableBody (cells : List (List String)) : String := String.join (cells.map rowMarkup)

end Artha.Exports
