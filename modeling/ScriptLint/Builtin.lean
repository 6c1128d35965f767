import ScriptLint.Token.Lexing

/-!
Names that mean something without a declaration.

* `Builtin.names`: the built-in prices, indicators, functions and orders.
* `Builtin.literals`: the words that stand for a value.
* `Catalogue`: the built-in names of one analysis, the fixed ones and the extra
  ones of its settings. No name in it depends on the case of its letters.
-/

namespace ScriptLint

namespace Builtin

/-- The built-in names: prices and bars, indicators, arithmetic, orders and
positions, output and lists. -/
def names : List String :=
  ["Open", "High", "Low", "Close", "Volume", "Time", "Date", "BarIndex", "Bars",
    "Symbol", "SMA", "EMA", "WMA", "RSI", "MACD", "ATR", "ADX", "Bollinger", "StdDev",
    "Highest", "Lowest", "Average", "Sum", "CrossOver", "CrossUnder", "Abs", "Min",
    "Max", "Round", "Floor", "Ceil", "Sqrt", "Pow", "Log", "Exp", "Buy", "Sell",
    "SellShort", "BuyToCover", "ExitLong", "ExitShort", "CancelOrders", "Position",
    "MarketPosition", "EntryPrice", "Equity", "Cash", "Print", "Alert", "Len", "Push",
    "NaN", "IsNaN"]

/-- The words that stand for a value. -/
def literals : List String :=
  ["true", "false", "null", "undefined"]

/-- The name is in a list of names, whatever the case of its letters. -/
def isNamedIn (list : List String) (name : List Char) : Bool :=
  list.any fun known => Text.sameName known.toList name

/-- The name is one of the built-in names. -/
def isBuiltin (name : List Char) : Bool :=
  isNamedIn names name

/-- The name stands for a value. -/
def isLiteral (name : List Char) : Bool :=
  isNamedIn literals name

end Builtin

/-- The built-in names of one analysis. -/
structure Catalogue where
  /-- The names beside the fixed ones. -/
  extra : List String
deriving DecidableEq, Repr

namespace Catalogue

/-- The catalogue that holds the fixed names only. -/
def base : Catalogue := ⟨[]⟩

/-- The name is built in, whatever the case of its letters. -/
def contains (catalogue : Catalogue) (name : List Char) : Bool :=
  Builtin.isBuiltin name || Builtin.isNamedIn catalogue.extra name

/-- The name is a keyword or built in, so that no script can define it. -/
def reserves (catalogue : Catalogue) (name : List Char) : Bool :=
  (Keyword.ofWord? name).isSome || catalogue.contains name

end Catalogue

end ScriptLint
