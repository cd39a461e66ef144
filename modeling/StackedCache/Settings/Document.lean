import StackedCache.Access
import StackedCache.Json.Library
import StackedCache.Settings.Check
import StackedCache.Timing.Command

/-!
# Settings documents

The names under which settings stand in a document, field by field, and the kinds of their contents.
The same lists read and write, so that a written document reads back as the settings it came from,
whichever library is asked to do it.
-/

namespace StackedCache

open Json

section Codecs

variable (library : Library := .plain)

/-! ## Names of choices -/

def Access.codec : Codec Access := library.choice
  [{ value := .read, name := "read", others := ["R", "READ"] },
   { value := .write, name := "write", others := ["W", "WRITE"] }]

def Command.codec : Codec Command := library.choice
  (Command.all.map fun c => { value := c, name := c.text })

def Design.codec : Codec Design := library.choice
  [{ value := .alloy, name := "alloy", others := ["Alloy"] },
   { value := .unison, name := "unison", others := ["Unison"] },
   { value := .constant, name := "constant", others := ["Constant"] }]

def Ageing.codec : Codec Ageing := library.choice
  [{ value := .maxAge, name := "max_age", others := ["MaxAge", "aging"] },
   { value := .lru, name := "lru", others := ["LRU", "Lru"] }]

namespace Policy

def number : Policy → Nat
  | disable => 0
  | swap => 1
  | vaultDisable => 2
  | hybrid => 3

def ofNumber? : Nat → Option Policy
  | 0 => some disable
  | 1 => some swap
  | 2 => some vaultDisable
  | 3 => some hybrid
  | _ => none

def codec : Codec Policy := library.code ofNumber? number

end Policy

def Bandwidth.codec : Codec Bandwidth :=
  library.wrap library.float Bandwidth.mk Bandwidth.bytesPerNs

def Celsius.codec : Codec Celsius := library.wrap library.float Celsius.mk Celsius.value

/-! ## Sections -/

/-- The parameters counted in cycles, with their names. -/
def Speed.cycleFields : List (Member Speed) :=
  [.of "n_bl" library.word32 (·.bl) fun v s => { s with bl := v },
   .of "n_ccds" library.word32 (·.ccds) fun v s => { s with ccds := v },
   .of "n_ccdl" library.word32 (·.ccdl) fun v s => { s with ccdl := v },
   .of "n_cl" library.word32 (·.cl) fun v s => { s with cl := v },
   .of "n_rcdr" library.word32 (·.rcdr) fun v s => { s with rcdr := v },
   .of "n_rcdw" library.word32 (·.rcdw) fun v s => { s with rcdw := v },
   .of "n_rp" library.word32 (·.rp) fun v s => { s with rp := v },
   .of "n_cwl" library.word32 (·.cwl) fun v s => { s with cwl := v },
   .of "n_ras" library.word32 (·.ras) fun v s => { s with ras := v },
   .of "n_rc" library.word32 (·.rc) fun v s => { s with rc := v },
   .of "n_rtp" library.word32 (·.rtp) fun v s => { s with rtp := v },
   .of "n_wtrs" library.word32 (·.wtrs) fun v s => { s with wtrs := v },
   .of "n_wtrl" library.word32 (·.wtrl) fun v s => { s with wtrl := v },
   .of "n_wr" library.word32 (·.wr) fun v s => { s with wr := v },
   .of "n_rrds" library.word32 (·.rrds) fun v s => { s with rrds := v },
   .of "n_rrdl" library.word32 (·.rrdl) fun v s => { s with rrdl := v },
   .of "n_faw" library.word32 (·.faw) fun v s => { s with faw := v },
   .of "n_rfc" library.word32 (·.rfc) fun v s => { s with rfc := v },
   .of "n_refi" library.word32 (·.refi) fun v s => { s with refi := v },
   .of "n_pd" library.word32 (·.pd) fun v s => { s with pd := v },
   .of "n_xp" library.word32 (·.xp) fun v s => { s with xp := v },
   .of "n_ckesr" library.word32 (·.ckesr) fun v s => { s with ckesr := v },
   .of "n_xs" library.word32 (·.xs) fun v s => { s with xs := v }]

def Speed.codec : Codec Speed := library.record {}
  (.of "tck_ps" library.word64 (·.tck) (fun v s => { s with tck := v }) ::
    Speed.cycleFields library)

def StackSettings.codec : Codec StackSettings := library.record {}
  [.of "vaults" library.word32 (·.vaults) fun v s => { s with vaults := v },
   .of "vault_size" library.word64 (·.vaultSize) fun v s => { s with vaultSize := v },
   .of "bank_size" library.word64 (·.bankSize) fun v s => { s with bankSize := v },
   .of "row_size" library.word64 (·.rowSize) fun v s => { s with rowSize := v },
   .of "auto_precharge" library.bool (·.autoPrecharge) fun v s => { s with autoPrecharge := v },
   .of "refresh" library.bool (·.refresh) fun v s => { s with refresh := v },
   .of "bandwidth" (Bandwidth.codec library) (·.bandwidth) fun v s => { s with bandwidth := v },
   .of "request_bytes" library.word64 (·.requestBytes) fun v s => { s with requestBytes := v },
   .of "speed" (Speed.codec library) (·.speed) fun v s => { s with speed := v }]

def CacheSettings.codec : Codec CacheSettings := library.record {}
  [.of "model" (Design.codec library) (·.design) fun v s => { s with design := v },
   .of "sets" library.word64 (·.sets) fun v s => { s with sets := v },
   .of "associativity" library.word32 (·.associativity) fun v s => { s with associativity := v },
   .of "block_size" library.word64 (·.blockSize) fun v s => { s with blockSize := v },
   .of "page_size" library.word64 (·.pageSize) fun v s => { s with pageSize := v },
   .of "replacement" (Ageing.codec library) (·.ageing) fun v s => { s with ageing := v },
   .of "footprint_entries" library.word64 (·.footprintEntries)
     fun v s => { s with footprintEntries := v },
   .of "tags_per_row" library.word64 (·.tagsPerRow) fun v s => { s with tagsPerRow := v },
   .of "translate_pages" library.bool (·.renumberPages) fun v s => { s with renumberPages := v }]

def SegmentSettings.codec : Codec SegmentSettings := library.record {}
  [.of "fast_memory" library.word64 (·.fastMemory) fun v s => { s with fastMemory := v },
   .of "segment_size" library.word64 (·.segmentSize) fun v s => { s with segmentSize := v },
   .of "slots" library.word32 (·.slots) fun v s => { s with slots := v },
   .of "swap_count" library.word32 (·.swapCount) fun v s => { s with swapCount := v }]

def MemorySettings.codec : Codec MemorySettings := library.record {}
  [.of "latency_ns" library.word64 (·.latencyNs) fun v s => { s with latencyNs := v },
   .of "bandwidth" (Bandwidth.codec library) (·.bandwidth) fun v s => { s with bandwidth := v },
   .of "on_top" library.bool (·.onTop) fun v s => { s with onTop := v },
   .of "bus_delay_ns" library.word64 (·.busDelayNs) fun v s => { s with busDelayNs := v },
   .of "queue_latency_ns" library.word64 (·.queueLatencyNs)
     fun v s => { s with queueLatencyNs := v }]

def RelocationSettings.codec : Codec RelocationSettings := library.record {}
  [.of "enabled" library.bool (·.enabled) fun v s => { s with enabled := v },
   .of "policy" (Policy.codec library) (·.policy) fun v s => { s with policy := v },
   .of "inter_vault" library.bool (·.interVault) fun v s => { s with interVault := v },
   .of "high_threshold" (Celsius.codec library) (·.high) fun v s => { s with high := v },
   .of "dangerous_threshold" (Celsius.codec library) (·.dangerous)
     fun v s => { s with dangerous := v },
   .of "remap_threshold" (Celsius.codec library) (·.cool) fun v s => { s with cool := v },
   .of "initial_temperature" (Celsius.codec library) (·.initial) fun v s => { s with initial := v },
   .of "hot_rows" library.word64 (·.hotRows) fun v s => { s with hotRows := v },
   .of "cooldown_epochs" library.word64 (·.cooldownEpochs)
     fun v s => { s with cooldownEpochs := v },
   .of "lookup_latency_ps" library.word64 (·.lookupLatencyPs)
     fun v s => { s with lookupLatencyPs := v },
   .of "global_lookup_latency_ps" library.word64 (·.globalLookupLatencyPs)
     fun v s => { s with globalLookupLatencyPs := v }]

def Settings.codec : Codec Settings := library.record {}
  [.of "enabled" library.bool (·.enabled) fun v s => { s with enabled := v },
   .of "application_cores" library.word32 (·.applicationCores)
     fun v s => { s with applicationCores := v },
   .of "dram" (StackSettings.codec library) (·.stack) fun v s => { s with stack := v },
   .of "cache" (CacheSettings.codec library) (·.cache) fun v s => { s with cache := v },
   .of "segment" (SegmentSettings.codec library) (·.segment) fun v s => { s with segment := v },
   .of "memory" (MemorySettings.codec library) (·.memory) fun v s => { s with memory := v },
   .of "remap" (RelocationSettings.codec library) (·.relocation)
     fun v s => { s with relocation := v }]

end Codecs

/-! ## Documents -/

/-- A document that does not decode is refused as settings. -/
def SettingsFault.ofDecode : DecodeFault → SettingsFault
  | .mismatch => .unreadable
  | .unassigned id => .unknownPolicy id

namespace Settings

/-- The settings a text stands for, unchecked. -/
def decode (text : String) (library : Library := .plain) : Except SettingsFault Settings :=
  (library.readText (codec library) text).mapError SettingsFault.ofDecode

/-- The settings a text stands for, if they pass the check. -/
def ofText (text : String) (library : Library := .plain) : Except SettingsFault Settings := do
  let settings ← decode text library
  settings.check
  pure settings

def toText (s : Settings) (library : Library := .plain) : String :=
  library.print ((codec library).write s)

end Settings

end StackedCache
