/-!
# DRAM commands

The vocabulary a bank understands.
-/

namespace StackedCache

/-- A command to a DRAM bank. -/
inductive Command where
  /-- Activate, that is open, a row. -/
  | act
  /-- Precharge, that is close, the open row. -/
  | pre
  /-- Precharge all banks. -/
  | prea
  /-- Read a column. -/
  | rd
  /-- Write a column. -/
  | wr
  /-- Read a column and precharge. -/
  | rda
  /-- Write a column and precharge. -/
  | wra
  /-- Refresh all banks. -/
  | ref
  /-- Refresh a single bank. -/
  | refsb
  /-- Enter power-down. -/
  | pde
  /-- Leave power-down. -/
  | pdx
  /-- Enter self-refresh. -/
  | sre
  /-- Leave self-refresh. -/
  | srx
  deriving DecidableEq, Repr, Inhabited

namespace Command

/-- Every command once. -/
def all : List Command :=
  [act, pre, prea, rd, wr, rda, wra, ref, refsb, pde, pdx, sre, srx]

def text : Command → String
  | act => "ACT"
  | pre => "PRE"
  | prea => "PREA"
  | rd => "RD"
  | wr => "WR"
  | rda => "RDA"
  | wra => "WRA"
  | ref => "REF"
  | refsb => "REFSB"
  | pde => "PDE"
  | pdx => "PDX"
  | sre => "SRE"
  | srx => "SRX"

/-- A column read or write, precharging or not. -/
def isColumn (c : Command) : Bool := c = rd || c = wr || c = rda || c = wra

/-- A column write, precharging or not. -/
def isWrite (c : Command) : Bool := c = wr || c = wra

/-- A column access that closes the row afterwards. -/
def autoPrecharges (c : Command) : Bool := c = rda || c = wra

/-- A command whose purpose is to close the open row. -/
def closesRow (c : Command) : Bool := c = pre || c = prea

theorem mem_all (c : Command) : c ∈ all := by cases c <;> decide

end Command

end StackedCache
