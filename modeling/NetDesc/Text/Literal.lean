import NetDesc.Text.Shown

namespace NetDesc

inductive LiteralFault where
  | longInt (digits : Nat)
  | unwritten
  | notWhole (base : Nat) (codes : List Nat)
  | notNumber (codes : List Nat)
  | tooLarge
  | noSign
  | notBoolean
  | notDate
  | year
  | month
  | day
  | hour
  | minute
  | second
  | offset (seconds : Int)
  | character (code : Nat)
deriving DecidableEq, Repr

namespace LiteralFault

def shownOffset (seconds : Int) : String :=
  let days := Int.fdiv seconds 86400
  let left := Int.fmod seconds 86400
  "datetime.timedelta(" ++ ", ".intercalate
    ((if days = 0 then [] else ["days=" ++ toString days]) ++
      (if left = 0 then [] else ["seconds=" ++ toString left])) ++ ")"

def message : LiteralFault → String
  | .longInt digits =>
    "Exceeds the limit (4300 digits) for integer string conversion: value has " ++
      toString digits ++ " digits; use sys.set_int_max_str_digits() to increase the limit"
  | .unwritten =>
    "Exceeds the limit (4300 digits) for integer string conversion; " ++
      "use sys.set_int_max_str_digits() to increase the limit"
  | .notWhole base codes =>
    "invalid literal for int() with base " ++ toString base ++ ": " ++
      String.ofList ((Text.shownCodes codes).toList.take 200)
  | .notNumber codes => "could not convert string to float: " ++ Text.shownCodes codes
  | .tooLarge => "int too large to convert to float"
  | .noSign => "string index out of range"
  | .notBoolean => "Not a truth value"
  | .notDate => "Not a date"
  | .year => "year 0 is out of range"
  | .month => "month must be in 1..12"
  | .day => "day is out of range for month"
  | .hour => "hour must be in 0..23"
  | .minute => "minute must be in 0..59"
  | .second => "second must be in 0..59"
  | .offset seconds =>
    "offset must be a timedelta strictly between -timedelta(hours=24) and " ++
      "timedelta(hours=24), not " ++ shownOffset seconds ++ "."
  | .character _ => "chr() arg not in range(0x110000)"

end LiteralFault

end NetDesc
