import Dialogue.Flag

/-!
# Conditions

What guards a block of a dialogue: a flag that compares with a value, or the time of day.
-/

namespace Dialogue

open Json (Cause Decoder)

inductive TimeOfDay where
  | day
  | night
  deriving DecidableEq, Repr

namespace TimeOfDay

def names : List (String × TimeOfDay) := [("day", day), ("night", night)]

def text : TimeOfDay → String
  | day => "day"
  | night => "night"

end TimeOfDay

inductive Condition where
  | flag (key : String) (op : Comparison) (value : FlagValue) (scope : Scope)
  | time (time : TimeOfDay)
  deriving DecidableEq, Repr

namespace Condition

def encode : Condition → Json
  | flag key op value scope =>
    .object [("key", .string key), ("op", .string op.text), ("value", value.encode),
      ("scope", .string scope.text)]
  | time t => .object [("time_of_day", .string t.text)]

/-- A comparison of a flag. -/
def flagRecord :=
  (((((Decoder.Record.empty "struct FlagCondition").and
    (.required "key" .string)).and
    (.required "op" Comparison.decoder)).and
    (.required "value" FlagValue.decoder)).and
    (.defaulted "scope" Scope.decoder .own)).map
    fun (((((), key), op), value), scope) => Condition.flag key op value scope

/-- A time of day, which has no list form. -/
def timeRecord :=
  ((Decoder.Record.empty "struct variant Condition::Time").and
    (.required "time_of_day" (.name TimeOfDay.names))).map fun ((), t) => Condition.time t

/-- What a JSON value stands for as a time of day. -/
def timeOfJson : Json → Except Cause Condition
  | .object entries => timeRecord.fromFields entries
  | v => .error (.invalidType v.found timeRecord.expected)

/-- A value with the fields of both forms is a comparison. -/
def decoder : Decoder Condition :=
  .untagged "Condition" [flagRecord.decoder.fromValue, timeOfJson]

end Condition

end Dialogue
