import StackedCache.Decimal.Fixed
import StackedCache.Model.Summary

/-!
# Summaries as text

The text of a summary is a title and four sections, set apart by rules.  A line has a label, padded
to a common width, and a value.
-/

namespace StackedCache

namespace Statistics

def labelWidth : Nat := 25

def entry (label value : String) : String :=
  label ++ String.ofList (List.replicate (labelWidth - label.length) ' ') ++ value

def inSection (label : String) : String := "  " ++ label

/-- An entry with a count in a section. -/
def countLine (label : String) (n : Nat) : String := entry (inSection label) (toString n)

/-- An entry with a time in a section. -/
def timeLine (label : String) (t : Time) : String := entry (inSection label) t.text

/-- A rate from zero to one as a percentage with two decimals. -/
def percentage (rate : Float) : String := Decimal.fixed 2 (rate * 100.0) ++ "%"

/-- A number of sets and the blocks in them. -/
def setsAndBlocks (sets blocks : Nat) : String :=
  toString sets ++ " sets / " ++ toString blocks ++ " blocks"

def ruleOf (c : Char) : String := String.ofList (List.replicate 58 c)

end Statistics

open Statistics

namespace Summary

def titleLines (s : Summary) : List String :=
  [ruleOf '=', "STACKED DRAM CACHE STATISTICS", ruleOf '=',
   entry "requests" (toString s.accesses), entry "latency.total" s.totalLatency.text,
   entry "latency.average" s.averageLatency.text, entry "anomalies" (toString s.anomalies)]

/-- The entries on segments, unless nothing ever happened to one. -/
def segmentLines (n : CacheCounts) : List String :=
  if n.segmentHits + n.segmentSwaps = 0 then []
  else [countLine "segment.hits" n.segmentHits, countLine "segment.swaps" n.segmentSwaps]

def cacheLines (s : Summary) : List String :=
  let n := s.cache
  ["CACHE", countLine "reads" n.reads, countLine "writes" n.writes,
   entry (inSection "misses") (toString n.misses ++ " (" ++ percentage s.hitRate ++ " hit)"),
   countLine "misses.page" n.pageMisses, countLine "misses.block" n.blockMisses,
   countLine "bypass.disabled" n.bypasses, countLine "blocks.loaded" n.loadedBlocks,
   countLine "blocks.writeback" n.writebackBlocks,
   entry (inSection "remap.invalidated") (setsAndBlocks n.invalidations n.invalidatedBlocks),
   entry (inSection "remap.migrated") (setsAndBlocks n.migrations n.migratedBlocks)]
    ++ segmentLines n

def stackLines (s : Summary) : List String :=
  let a := s.stackTotal
  ["DRAM", countLine "reads" a.reads, countLine "writes" a.writes,
   entry (inSection "row_hits") (toString a.rowHits ++ " (" ++ percentage a.rowHitRate ++ ")"),
   countLine "refreshes" a.refreshes, timeLine "t.act" a.activating,
   timeLine "t.pre" a.precharging, timeLine "t.rd" a.reading, timeLine "t.wr" a.writing]

def relocationLines (s : Summary) : List String :=
  let n := s.relocation.counts
  ["REMAPPING", countLine "epochs" n.epochs, countLine "swaps.bank" n.bankSwaps,
   countLine "swaps.vault" n.vaultSwaps, countLine "rows.migrated" n.rowMigrations,
   entry (inSection "disables")
     (toString n.disables ++ " (" ++ toString n.doubleDisables ++ " double)"),
   countLine "recoveries" n.recoveries, countLine "failures" n.failures,
   countLine "banks.displaced" s.relocation.displacedBanks,
   countLine "banks.disabled" s.relocation.disabledBanks]

def textLines (s : Summary) : List String :=
  [s.titleLines, s.cacheLines, s.stackLines, s.relocationLines].flatMap fun section_ =>
    section_ ++ [ruleOf '-']

/-- The text of a summary.  There is no line break after the last rule. -/
def text (s : Summary) : String := "\n".intercalate s.textLines

end Summary

end StackedCache
