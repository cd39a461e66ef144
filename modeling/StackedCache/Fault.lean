import StackedCache.Decimal.Fixed
import StackedCache.Quantity.Time
import StackedCache.Quantity.Celsius
import StackedCache.Text.Numeral
import StackedCache.Timing.Command

/-!
# What can go wrong

Each layer has its own causes of failure.  A cause carries the data that explain it, and its wording
is in one `message` function.
-/

namespace StackedCache

/-! ## Settings -/

/-- A reason to refuse settings. -/
inductive SettingsFault where
  /-- A size or count is zero. -/
  | zero (field : String)
  /-- A size or count that is used as a bit field is no power of two. -/
  | notPowerOfTwo (field : String) (value : Nat)
  /-- Two temperature thresholds, or two sizes, contradict each other. -/
  | inconsistent (reason : String)
  /-- The text is no settings document. -/
  | unreadable
  /-- The document names a policy that does not exist. -/
  | unknownPolicy (id : Nat)
  deriving DecidableEq, Repr

namespace SettingsFault

/-- What is said of every text that is no settings document. -/
def unreadableText : String := "failed to parse configuration"

def unknownPolicyText (id : Nat) : String :=
  "unknown remap policy id " ++ toString id ++ " (expected 0-3)"

def message : SettingsFault → String
  | zero field => "`" ++ field ++ "` must be non-zero"
  | notPowerOfTwo field value =>
      "`" ++ field ++ "` must be a power of two (got " ++ toString value ++ ")"
  | inconsistent reason => "inconsistent configuration: " ++ reason
  | unreadable => unreadableText
  | unknownPolicy id => unreadableText ++ ": " ++ unknownPolicyText id

end SettingsFault

/-! ## DRAM timing -/

/-- A command or request the DRAM refuses. -/
inductive TimingFault where
  /-- The command may not follow the last one. -/
  | illegalTransition (last next : Command)
  /-- The vault has no such bank. -/
  | bankOutOfRange (bank banks : Nat)
  /-- The bank has no such row. -/
  | rowOutOfRange (row rows : Nat)
  /-- A column command names a row that is not the open one. -/
  | rowNotOpen (command : Command) (row : Nat) (openRow : Option Nat)
  /-- The stack has no such vault. -/
  | vaultOutOfRange (vault vaults : Nat)
  deriving DecidableEq, Repr

namespace TimingFault

/-- An optional row, as messages write it. -/
def rowText : Option Nat → String
  | some row => "Some(" ++ toString row ++ ")"
  | none => "None"

def message : TimingFault → String
  | illegalTransition last next =>
      "illegal DRAM command transition " ++ last.text ++ " -> " ++ next.text
  | bankOutOfRange bank banks =>
      "bank " ++ toString bank ++ " out of range (vault has " ++ toString banks ++ " banks)"
  | rowOutOfRange row rows =>
      "row " ++ toString row ++ " out of range (bank has " ++ toString rows ++ " rows)"
  | rowNotOpen command row openRow =>
      command.text ++ " to row " ++ toString row ++ " but open row is " ++ rowText openRow
  | vaultOutOfRange vault vaults =>
      "vault " ++ toString vault ++ " out of range (stack has " ++ toString vaults ++ " vaults)"

end TimingFault

/-! ## Cache sets -/

/-- An operation a cache set refuses. -/
inductive CacheFault where
  /-- No way holds the tag. -/
  | lookupMiss (tag : Nat)
  /-- The set has no such way. -/
  | indexOutOfRange (index ways : Nat)
  /-- A line does not track that many blocks. -/
  | blockOutOfRange (block blocks : Nat)
  /-- Another way holds the tag already. -/
  | duplicateTag (tag : Nat)
  deriving DecidableEq, Repr

namespace CacheFault

def message : CacheFault → String
  | lookupMiss tag => "tag " ++ Text.hexText tag ++ " not present in set"
  | indexOutOfRange index ways =>
      "way " ++ toString index ++ " out of range (set has " ++ toString ways ++ " ways)"
  | blockOutOfRange block blocks =>
      "block " ++ toString block ++ " out of range (line tracks " ++ toString blocks ++ " blocks)"
  | duplicateTag tag => "tag " ++ Text.hexText tag ++ " already resident in another way"

end CacheFault

/-! ## Relocation -/

/-- A relocation that does not happen. -/
inductive RelocationFault where
  /-- No bank can take over the data of a hot bank. -/
  | noTarget (vault bank : Nat) (temperature : Celsius)
  /-- No vault can take over the data of a hot vault. -/
  | noVaultTarget (vault : Nat) (temperature : Celsius)
  /-- The stack has no such bank. -/
  | outOfRange (vault bank : Nat)

namespace RelocationFault

def temperatureText (t : Celsius) : String := Decimal.fixed 1 t.value

def message : RelocationFault → String
  | noTarget vault bank temperature =>
      "no remap target for hot bank " ++ toString bank ++ " in vault " ++ toString vault ++ " ("
        ++ temperatureText temperature ++ " C)"
  | noVaultTarget vault temperature =>
      "no remap target for hot vault " ++ toString vault ++ " ("
        ++ temperatureText temperature ++ " C)"
  | outOfRange vault bank =>
      "vault " ++ toString vault ++ " bank " ++ toString bank ++ " out of range"

end RelocationFault

/-! ## Any layer -/

/-- A failure of any layer. -/
inductive Fault where
  | settings (cause : SettingsFault)
  | timing (cause : TimingFault)
  | cache (cause : CacheFault)
  | relocation (cause : RelocationFault)

namespace Fault

def message : Fault → String
  | settings cause => cause.message
  | timing cause => cause.message
  | cache cause => cause.message
  | relocation cause => cause.message

/-- The message of a request that failed after it had taken some time. -/
def messageAfter (fault : Fault) (elapsed : Time) : String :=
  fault.message ++ " (after " ++ elapsed.text ++ ")"

end Fault

end StackedCache
