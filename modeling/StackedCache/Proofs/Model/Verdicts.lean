import StackedCache.Proofs.Model.Accesses
import StackedCache.Proofs.Service.Arrival
import StackedCache.Proofs.Service.Effects

/-!
# Verdicts on requests

A request is counted when it arrives and judged while it is served: it hits, misses in one of
several ways, or goes past the cache, and each verdict is counted in a place of its own.  `Balance`
says how the counters agree while some requests still wait for their verdict.
-/

namespace StackedCache

/-! ## Counters that agree -/

namespace CacheCounts

/-- The counters of a design agree, when `waiting` requests have been counted but not judged. -/
structure Balance (d : Design) (waiting : Nat) (n : CacheCounts) : Prop where
  directions : n.accesses = n.reads + n.writes
  misses : n.misses + waiting ≤ n.accesses
  verdicts :
    match d with
    | .alloy => n.misses = n.pageMisses + n.bypasses ∧ n.blockMisses = 0
    | .unison => n.misses = n.pageMisses + n.blockMisses ∧ n.bypasses ≤ n.blockMisses
    | .constant => n.accesses = n.segmentHits + n.misses + waiting ∧ n.bypasses ≤ n.misses

variable {d : Design} {n : CacheCounts}

theorem Balance.zero (d : Design) : Balance d 0 {} := by
  refine ⟨rfl, Nat.le_refl _, ?_⟩
  cases d with
  | alloy => exact ⟨rfl, rfl⟩
  | unison => exact ⟨rfl, Nat.le_refl _⟩
  | constant => exact ⟨rfl, Nat.le_refl _⟩

/-- In a cache of sets, a hit is not counted. -/
theorem Balance.hit (h : n.Balance d 1) (sets : d ≠ .constant) : n.Balance d 0 := by
  refine ⟨h.directions, Nat.le_of_succ_le h.misses, ?_⟩
  cases d with
  | alloy => exact h.verdicts
  | unison => exact h.verdicts
  | constant => exact absurd rfl sets

end CacheCounts

namespace Controller

variable {c : Controller} {d : Design} {k : Nat}

/-- Drawing the consequences of relocation counts blocks and judges nothing. -/
theorem settled_balance (h : c.counts.Balance d k) : c.settled.counts.Balance d k := by
  have same := c.settled_keeps (CacheCounts.Balance d k)
    (fun _ _ => propext ⟨fun h => ⟨h.1, h.2, h.3⟩, fun h => ⟨h.1, h.2, h.3⟩⟩)
    (fun _ _ _ => propext ⟨fun h => ⟨h.1, h.2, h.3⟩, fun h => ⟨h.1, h.2, h.3⟩⟩)
    fun _ _ _ => propext ⟨fun h => ⟨h.1, h.2, h.3⟩, fun h => ⟨h.1, h.2, h.3⟩⟩
  rwa [same]

/-- A request that arrives waits for its verdict. -/
theorem arrived_balance (h : c.counts.Balance d 0) (time : Time) (access : Access) :
    (c.arrived time access).counts.Balance d 1 := by
  have ordered : (c.order time).2.counts.Balance d 0 := by
    unfold order
    split
    · exact ⟨h.1, h.2, h.3⟩
    · exact h
  unfold arrived countRequest modifyCounts
  have directions := ordered.directions
  have misses := ordered.misses
  have verdicts := ordered.verdicts
  cases access with
  | read =>
      refine ⟨?_, Nat.succ_le_succ misses, ?_⟩
      · dsimp only
        omega
      · cases d with
        | alloy => exact verdicts
        | unison => exact verdicts
        | constant => exact ⟨congrArg (· + 1) verdicts.1, verdicts.2⟩
  | write =>
      refine ⟨?_, Nat.succ_le_succ misses, ?_⟩
      · dsimp only
        omega
      · cases d with
        | alloy => exact verdicts
        | unison => exact verdicts
        | constant => exact ⟨congrArg (· + 1) verdicts.1, verdicts.2⟩

end Controller

/-! ## Parts of a request -/

namespace Service

open CacheCounts (Balance)

variable {α β : Type} {P Q R : CacheCounts → Prop}

/-- From counters in `P`, the step ends with counters in `Q` if it succeeds. -/
def Brings (P Q : CacheCounts → Prop) (m : Serving α) : Prop :=
  ∀ s : Service, P s.controller.counts → Yields m s fun _ s' => Q s'.controller.counts

/-- Nothing has been counted. -/
def SameCounts (s s' : Service) : Prop := s'.controller.counts = s.controller.counts

namespace Brings

variable {m m' : Serving α} {f : α → Serving β}

theorem bind (first : Brings P Q m) (rest : ∀ a, Brings Q R (f a)) : Brings P R (m >>= f) :=
  fun s h => (first s h).bind fun a s' h' => rest a s' h'

theorem ite {c : Prop} [Decidable c] (yes : Brings P Q m) (no : Brings P Q m') :
    Brings P Q (if c then m else m') := fun _ h => .ite (fun _ => yes _ h) fun _ => no _ h

theorem theController_bind {f : Controller → Serving β} (h : ∀ c, Brings P Q (f c)) :
    Brings P Q (theController >>= f) := fun s hs => h s.controller s hs

theorem count {f : CacheCounts → CacheCounts} (h : ∀ n, P n → Q (f n)) : Brings P Q (count f) :=
  fun _ hs => .modify (h _ hs)

theorem pure (a : α) : Brings P P (Pure.pure a : Serving α) := fun _ hs => .pure hs

theorem of_imp (h : Brings Q R m) (weaker : ∀ n, P n → Q n) : Brings P R m :=
  fun _ hs => h _ (weaker _ hs)

/-- A part that does not count keeps whatever holds of the counters. -/
theorem silent (h : Within SameCounts m) : Brings P P m := by
  intro s hs a s' done
  have same := h s
  unfold Leads at same
  rw [done] at same
  have same : s'.controller.counts = s.controller.counts := same
  exact same ▸ hs

end Brings

/-- Most parts of a request do not count. -/
theorem counts_covering : Covering SameCounts where
  refl _ := rfl
  trans h h' := h'.trans h
  charge _ _ := rfl
  sets _ _ := rfl
  organisation _ _ := rfl
  pageTable _ _ := rfl
  stack _ _ := rfl
  layer _ _ _ _ _ := rfl

theorem transfer_brings (arrival : Time) (access : Access) (bytes : Nat) (row : Location) :
    Brings P P (transfer arrival access bytes row) :=
  .silent (within_transfer counts_covering _ _ _ _)

theorem setAt_brings (index : Nat) : Brings P P (setAt index) :=
  .silent (within_setAt counts_covering _)

theorem storeSet_brings (index : Nat) (set : CacheSet) : Brings P P (storeSet index set) :=
  .silent (within_storeSet counts_covering _ _)

theorem load_brings (bytes : Nat) : Brings P P (load bytes) :=
  .silent (within_load counts_covering _)

theorem stream_brings (bytes : Nat) : Brings P P (stream bytes) :=
  .silent (within_stream counts_covering _)

/-- The set at an index is that of the controller. -/
theorem setAt_yields (index : Nat) (s : Service) :
    Yields (setAt index) s fun set s' => s.controller.set? index = some set ∧ s' = s := by
  refine theController_bind_yields ?_
  cases s.controller.set? index with
  | some set => exact .pure ⟨rfl, rfl⟩
  | none => exact .throw

/-- A request that goes past the cache misses, and any other one has not been touched. -/
theorem bypass_brings (row : Location) (size : Nat) (s : Service)
    (gone : Q
      { s.controller.counts with
        bypasses := s.controller.counts.bypasses + 1
        misses := s.controller.counts.misses + 1 }) :
    Yields (bypass row size) s fun went s' => if went then Q s'.controller.counts else s' = s := by
  refine theController_bind_yields (.ite (fun _ => ?_) fun _ => .pure rfl)
  refine Yields.bind (P := fun _ s' => Q s'.controller.counts) (.modify gone) fun _ s' h => ?_
  exact (load_brings size s' h).bind fun _ s'' h => .pure h

/-- A request for a block hits, or its tag is missing. -/
theorem serveBlock_brings (arrival : Time) (size : Nat) (split : SplitAddress) (access : Access) :
    Brings (Balance .alloy 1) (Balance .alloy 0) (serveBlock arrival size split access) := by
  have transfers : ∀ {P access bytes row}, Brings P P (transfer arrival access bytes row) :=
    transfer_brings _ _ _ _
  have missed : ∀ (dirty : Nat) (n : CacheCounts), n.Balance .alloy 1 → Balance .alloy 0
      { n with
        misses := n.misses + 1
        pageMisses := n.pageMisses + 1
        loadedBlocks := n.loadedBlocks + 1
        writebackBlocks := n.writebackBlocks + dirty } := by
    intro dirty n h
    refine ⟨h.directions, h.misses, ?_, h.verdicts.2⟩
    dsimp only
    rw [h.verdicts.1]
    omega
  refine .bind (setAt_brings _) fun set => .bind transfers fun _ => ?_
  refine .bind (setAt_brings _) fun set => .bind (storeSet_brings _ _) fun _ => .ite ?_ ?_
  · refine .bind (.silent (within_replaceBlock counts_covering _ _ _)) fun dirty => ?_
    refine .bind (.count (missed dirty)) fun _ => .theController_bind fun c => ?_
    refine .bind transfers fun _ => .bind (load_brings _) fun _ => ?_
    exact .bind (stream_brings _) fun _ => transfers
  · exact transfers.of_imp fun n h => h.hit nofun

/-- A request for a block of a page hits, or the block or its page is missing. -/
theorem servePage_brings (arrival : Time) (split : SplitAddress) (access : Access) :
    Brings (Balance .unison 1) (Balance .unison 0) (servePage arrival split access) := by
  have transfers : ∀ {P access bytes row}, Brings P P (transfer arrival access bytes row) :=
    transfer_brings _ _ _ _
  have blockMissed : ∀ n : CacheCounts, n.Balance .unison 1 → Balance .unison 0
      { n with
        misses := n.misses + 1
        blockMisses := n.blockMisses + 1
        loadedBlocks := n.loadedBlocks + 1 } := by
    intro n h
    exact ⟨h.directions, h.misses, congrArg (· + 1) h.verdicts.1, Nat.le_succ_of_le h.verdicts.2⟩
  have missed : ∀ (blocks dirty : Nat) (n : CacheCounts), n.Balance .unison 1 → Balance .unison 0
      { n with
        misses := n.misses + 1
        pageMisses := n.pageMisses + 1
        loadedBlocks := n.loadedBlocks + blocks
        writebackBlocks := n.writebackBlocks + dirty } := by
    intro blocks dirty n h
    refine ⟨h.directions, h.misses, ?_, h.verdicts.2⟩
    dsimp only
    rw [h.verdicts.1]
    omega
  refine .theController_bind fun c => .bind (setAt_brings _) fun set => ?_
  refine .bind transfers fun _ => .bind (setAt_brings _) fun set => ?_
  refine .bind (storeSet_brings _ _) fun _ => ?_
  split
  · exact transfers.of_imp fun n h => h.hit nofun
  · refine .bind (.count blockMissed) fun _ => ?_
    exact .bind (load_brings _) fun _ => transfers
  · refine .bind (.silent (within_replacePage counts_covering _ _ _)) fun moved => ?_
    refine .bind (.count (missed moved.1 moved.2)) fun _ => .bind (load_brings _) fun _ => ?_
    exact .bind (stream_brings _) fun _ => transfers

/-- A request to a segment hits or misses. -/
theorem serveSegment_brings (arrival : Time) (size addr : Nat) (access : Access) (s : Service)
    (segments : Array Segment) (organised : s.controller.organisation = .segments segments)
    (h : s.controller.counts.Balance .constant 1) :
    Yields (serveSegment arrival size addr access) s fun _ s' =>
      s'.controller.counts.Balance .constant 0 := by
  have hit : ∀ n : CacheCounts, n.Balance .constant 1 →
      Balance .constant 0 { n with segmentHits := n.segmentHits + 1 } := by
    intro n h
    refine ⟨h.directions, Nat.le_of_succ_le h.misses, ?_, h.verdicts.2⟩
    dsimp only
    rw [h.verdicts.1]
    omega
  have missed : ∀ n : CacheCounts, n.Balance .constant 1 →
      Balance .constant 0 { n with misses := n.misses + 1 } := by
    intro n h
    exact ⟨h.directions, h.misses, h.verdicts.1, Nat.le_succ_of_le h.verdicts.2⟩
  have data : Brings (Balance .constant 0) (Balance .constant 0) (do
      transfer arrival access size ((← theController).stack.locate addr)) :=
    .theController_bind fun _ => transfer_brings _ _ _ _
  have counted : ∀ n : CacheCounts, n.Balance .constant 1 →
      Balance .constant 1 { n with segmentSwaps := n.segmentSwaps + 1 } :=
    fun n h => ⟨h.directions, h.misses, h.verdicts⟩
  have swapped : ∀ index, Brings (Balance .constant 1) (Balance .constant 1)
      (swapSegment arrival index) := fun index => by
    refine .theController_bind fun c => .bind (.count counted) fun _ => ?_
    exact .bind (.silent (within_copyRows counts_covering _ _ _ _ _)) fun _ => stream_brings _
  refine theController_bind_yields ?_
  rw [organised]
  refine Brings.bind (.silent (within_accessSegment counts_covering _ _)) (fun found => ?_) s h
  -- The verdict comes after the segment has swapped, and before the last transfer.
  have judged : Brings (Balance .constant 1) (Balance .constant 0) (do
      if found.hit then
        count fun n => { n with segmentHits := n.segmentHits + 1 }
      else
        count fun n => { n with misses := n.misses + 1 }
        stream size
      transfer arrival access size ((← theController).stack.locate addr)) :=
    .ite (.bind (.count hit) fun _ => data)
      (.bind (.count missed) fun _ => .bind (stream_brings _) fun _ => data)
  exact .ite (.bind (swapped _) fun _ => judged) judged

/-- Whatever the design, a request that is served gets one verdict. -/
theorem serveByDesign_brings (arrival : Time) (size addr : Nat) (access : Access) (s : Service)
    (h : s.controller.counts.Balance s.controller.organisation.design 1) :
    Yields (serveByDesign arrival size addr access) s fun _ s' =>
      s'.controller.counts.Balance s.controller.organisation.design 0 := by
  refine theController_bind_yields ?_
  -- A bypass is one more miss in all designs, and is counted as a missing block for pages only.
  cases organised : s.controller.organisation with
  | segments segments =>
      rw [organised] at h
      have gone : Balance .constant 0
          { s.controller.counts with
            bypasses := s.controller.counts.bypasses + 1
            misses := s.controller.counts.misses + 1 } :=
        ⟨h.directions, h.misses, h.verdicts.1, Nat.succ_le_succ h.verdicts.2⟩
      refine (bypass_brings _ size s gone).bind fun went s₁ done => ?_
      cases went with
      | true => exact .pure done
      | false =>
          cases done
          exact serveSegment_brings arrival size addr access s segments organised h
  | blocks =>
      rw [organised] at h
      refine (setAt_yields _ s).bind ?_
      rintro set s ⟨_, rfl⟩
      have gone : Balance .alloy 0
          { s.controller.counts with
            bypasses := s.controller.counts.bypasses + 1
            misses := s.controller.counts.misses + 1 } :=
        ⟨h.directions, h.misses, congrArg (· + 1) h.verdicts.1, h.verdicts.2⟩
      refine (bypass_brings _ size s gone).bind fun went s₁ done => ?_
      cases went with
      | true => exact .pure done
      | false =>
          cases done
          exact serveBlock_brings arrival size _ access s h
  | pages history =>
      rw [organised] at h
      refine (setAt_yields _ s).bind ?_
      rintro set s ⟨_, rfl⟩
      refine (bypass_brings (Q := fun n => Balance .unison 0 { n with
        blockMisses := n.blockMisses + 1 }) _ size s ?_).bind fun went s₁ done => ?_
      · exact ⟨h.directions, h.misses, congrArg (· + 1) h.verdicts.1,
          Nat.succ_le_succ h.verdicts.2⟩
      · cases went with
        | true =>
            exact Yields.bind (P := fun _ s₂ => s₂.controller.counts.Balance .unison 0)
              (.modify done) fun _ _ done => .pure done
        | false =>
            cases done
            exact servePage_brings arrival _ access s h

/-- An address gets its frame, and nothing else happens. -/
theorem renumber_yields (addr : Nat) (s : Service) :
    Yields (renumber addr) s fun _ s' => s'.controller.counts = s.controller.counts ∧
      s'.controller.organisation = s.controller.organisation := by
  refine theController_bind_yields ?_
  cases s.controller.pageTable with
  | none => exact .pure ⟨rfl, rfl⟩
  | some table =>
      intro a s' done
      cases done
      exact ⟨rfl, rfl⟩

theorem serve_brings (arrival : Time) (size addr : Nat) (access : Access) (s : Service)
    (h : s.controller.counts.Balance s.controller.organisation.design 1) :
    Yields (serve arrival size addr access) s fun _ s' =>
      s'.controller.counts.Balance s.controller.organisation.design 0 := by
  have settled : Yields settle s fun _ s' => s'.controller = s.controller.settled := by
    intro a s' done
    cases done
    rfl
  refine settled.bind fun _ s₁ here => theController_bind_yields ?_
  refine Yields.bind (P := fun _ s₂ => s₂.controller = s₁.controller) (.modify rfl) ?_
  intro _ s₂ same
  refine (renumber_yields addr s₂).bind fun addr s₃ kept => ?_
  have organised : s₃.controller.organisation = s.controller.organisation := by
    rw [kept.2, same, here, Controller.settled_organisation]
  have waiting : s₃.controller.counts.Balance s₃.controller.organisation.design 1 := by
    rw [organised, kept.1, same, here]
    exact Controller.settled_balance h
  have judged := serveByDesign_brings arrival size addr access s₃ waiting
  rw [organised] at judged
  refine judged.bind fun _ s₄ done => theController_bind_yields ?_
  exact Yields.bind
    (P := fun _ s₅ => s₅.controller.counts.Balance s.controller.organisation.design 0)
    (.modify done) fun _ _ done => .modify done

end Service

namespace Controller

variable {c : Controller}

/-- A request that does not fail leaves counters that agree. -/
theorem request_balance (h : c.counts.Balance c.organisation.design 0) {time : Time}
    {size addr : Nat} {access : Access} (served : (c.request time size addr access).1.fault = none) :
    (c.request time size addr access).2.counts.Balance c.organisation.design 0 := by
  have organised : (c.arrived time access).organisation = c.organisation := by
    rcases c.arrived_eq time access with ⟨counts, lastTime, arrived, _⟩
    rw [arrived]
  have waiting := arrived_balance h time access
  rw [← organised] at waiting
  have judged := Service.serve_brings (c.order time).1 size addr access
    ⟨c.arrived time access, .zero⟩ waiting
  rw [request_eq] at served ⊢
  cases run : Service.serve (c.order time).1 size addr access ⟨c.arrived time access, .zero⟩ with
  | ok u s =>
      rw [← organised]
      exact judged u s run
  | error fault s =>
      rw [run] at served
      cases served

/-! ## Runs -/

variable {s : Settings}

/-- Every operation keeps the counters of a sound controller in agreement, if its request does not
fail. -/
theorem Sound.perform_balance (h : c.Sound s) (balance : c.counts.Balance s.cache.design 0)
    {op : Operation} (answered : op.Answered c) :
    (c.perform op).counts.Balance s.cache.design 0 := by
  cases op with
  | request time size addr access =>
      rw [← h.design] at balance ⊢
      exact request_balance balance answered
  | setTemperature p t => exact balance
  | setHot p hot =>
      rcases c.perform_setHot p hot with ⟨stack, marked⟩
      rw [marked]
      exact balance
  | runEpoch => exact balance
  | resetCounts => exact .zero _

theorem Sound.run_balance (valid : s.Valid) (h : c.Sound s)
    (balance : c.counts.Balance s.cache.design 0) {ops : List Operation} (answers : c.Answers ops) :
    (c.run ops).counts.Balance s.cache.design 0 := by
  induction ops generalizing c with
  | nil => exact balance
  | cons op ops ih =>
      exact ih (h.perform valid op) (h.perform_balance balance answers.1) answers.2

end Controller

namespace Model

variable {m : Model} {s : Settings}

/-- After any run whose requests do not fail, every request is a read or a write, and has got one
verdict. -/
theorem run_balances (start : ofSettings s = .ok m) (ops : List Operation)
    (answers : m.controller.Answers (passed s ops)) :
    let n := (m.run ops).controller.statistics
    n.accesses = n.reads + n.writes ∧ n.misses ≤ n.accesses ∧
      match s.cache.design with
      | .unison => n.misses = n.pageMisses + n.blockMisses ∧ n.bypasses ≤ n.blockMisses
      | .alloy => n.misses = n.pageMisses + n.bypasses ∧ n.blockMisses = 0
      | .constant => n.accesses = n.segmentHits + n.misses ∧ n.bypasses ≤ n.misses := by
  intro n
  rcases ofSettings_ok start with ⟨valid, rfl⟩
  have reached := (run_controller { settings := s, controller := .ofSettings s } ops).2
  have balance := (Controller.ofSettings_sound valid).run_balance valid (.zero _) answers
  rw [← reached] at balance
  -- Nothing waits after a run, and the sets are summed up in other counters.
  refine ⟨balance.directions, balance.misses, ?_⟩
  have verdicts := balance.verdicts
  cases design : s.cache.design with
  | unison =>
      rw [design] at verdicts
      exact verdicts
  | alloy =>
      rw [design] at verdicts
      exact verdicts
  | constant =>
      rw [design] at verdicts
      exact verdicts

/-- A page is loaded, and once its bank is out of use a request goes past it. -/
theorem run_balances_bypass :
    let s := Settings.twoBanks .disable
    let m : Model := { settings := s, controller := .ofSettings s }
    let ops : List Operation :=
      [.request ⟨0⟩ 64 0 .write, .takeReading ⟨⟨0, 0⟩, ⟨96.0⟩⟩, .runEpoch,
        .request ⟨1000000⟩ 64 0 .read]
    let n := (m.run ops).controller.statistics
    ofSettings s = .ok m ∧ m.controller.Answers (passed s ops) ∧ n.bypasses = 1 ∧
      n.pageMisses = 1 ∧ n.blockMisses = 1 ∧ n.misses = 2 := by
  intro s m ops n
  have start : ofSettings s = .ok m := ofSettings_of_check (by decide +kernel)
  have answered : ∀ o : Option Fault, o.isNone = true → o = none :=
    fun o => Option.isNone_iff_eq_none.1
  have answers : m.controller.Answers (passed s ops) := by
    refine ⟨answered _ ?_, trivial, trivial, answered _ ?_, trivial⟩ <;> decide +kernel
  have bypasses : n.bypasses = 1 := by decide +kernel
  have pages : n.pageMisses = 1 := by decide +kernel
  have blocks : n.blockMisses = 1 := by decide +kernel
  have misses : n.misses = n.pageMisses + n.blockMisses := (run_balances start ops answers).2.2.1
  rw [pages, blocks] at misses
  exact ⟨start, answers, bypasses, pages, blocks, misses⟩

end Model

end StackedCache
