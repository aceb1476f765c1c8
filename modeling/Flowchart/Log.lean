import Flowchart.Table
import Flowchart.Text.Basic

/-!
Log entries. An entry is shown when its level is at least the level in force.
-/
namespace Flowchart.Log

inductive Level where
  | debug
  | info
  | warning
  | error
  | critical
  deriving DecidableEq, Repr

namespace Level

def name : Level → Text
  | debug => "DEBUG".toList
  | info => "INFO".toList
  | warning => "WARNING".toList
  | error => "ERROR".toList
  | critical => "CRITICAL".toList

def all : List Level := [debug, info, warning, error, critical]

def ofName? (word : Text) : Option Level := all.find? (·.name == word)

def rank : Level → Nat
  | debug => 10
  | info => 20
  | warning => 30
  | error => 40
  | critical => 50

end Level

/-- The part of the program that speaks. -/
inductive Channel where
  | reading
  | compiling
  | image
  | settings
  | watching
  deriving DecidableEq, Repr

def Channel.name : Channel → Text
  | reading => "flowdsl.parser".toList
  | compiling => "flowdsl.compiler".toList
  | image => "flowdsl.export".toList
  | settings => "flowdsl.config_manager".toList
  | watching => "flowdsl.cli_watch".toList

structure Entry where
  level : Level
  channel : Channel
  message : Text
  deriving DecidableEq, Repr

def Entry.render (entry : Entry) : Text :=
  entry.level.name ++ [' '] ++ entry.channel.name ++ ": ".toList ++ entry.message

def shown (threshold : Level) (entries : List Entry) : List Entry :=
  entries.filter fun entry => threshold.rank ≤ entry.level.rank

theorem Level.ofName?_name (level : Level) : ofName? level.name = some level := by
  cases level <;> decide

end Flowchart.Log
