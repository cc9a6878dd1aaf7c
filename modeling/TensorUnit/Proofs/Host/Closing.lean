import TensorUnit.Proofs.Host.History
import TensorUnit.Proofs.Host.Upkeep
import TensorUnit.Proofs.Remote.Ledger

namespace TensorUnit.Host

open Remote Sim

namespace Driving

variable {σ : Type} [Service σ] {h : Driving (Ledger σ)}

/-- The first refusal among some requests. -/
def refused? (entries : List Entry) : Option DriverError :=
  (entries.findSome? Entry.refusal).map .remote

theorem refused?_append (entries rest : List Entry) :
    refused? (entries ++ rest) = (refused? entries).or (refused? rest) := by
  simp [refused?, List.findSome?_append, Option.map_or]

omit [Service σ] in
theorem onRemote_note_run {α : Type} (request : Request) (a : Action σ RemoteError α)
    (h : Driving (Ledger σ)) :
    (onRemote ((Ledger.note request a).mapError DriverError.remote)).run h =
      ((a.run h.remote.remote).1.mapError .remote, ⟨h.driver, ⟨(a.run h.remote.remote).2,
        h.remote.entries ++ [⟨request, Ledger.refusal? (a.run h.remote.remote).1⟩]⟩⟩) := by
  rw [onRemote_run, Action.mapError_run, Ledger.note_run]

theorem releaseAll_cons_run (p : Primitive) :
    ∃ remote entry, entry.request = .execute [p] ∧ ∀ first rest,
      (releaseAll first (p :: rest)).run h =
        (releaseAll (first.or (refused? [entry])) rest).run
          ⟨h.driver, ⟨remote, h.remote.entries ++ [entry]⟩⟩ := by
  let r := (execute [p] : Action σ RemoteError _).run h.remote.remote
  refine ⟨r.2, ⟨.execute [p], Ledger.refusal? r.1⟩, rfl, fun first rest => ?_⟩
  have hcall : (call [p]).run h = (r.1.mapError .remote,
      ⟨h.driver, ⟨r.2, h.remote.entries ++ [⟨.execute [p], Ledger.refusal? r.1⟩]⟩⟩) :=
    onRemote_note_run (.execute [p]) _ h
  rw [releaseAll, Action.bind_run, Action.attempt_run, hcall]
  cases r.1 with
  | ok responses =>
    change (releaseAll first rest).run _ = _
    simp [refused?, Ledger.refusal?]
  | error e =>
    change (releaseAll (first.or (some (.remote e))) rest).run _ = _
    simp [refused?, Ledger.refusal?]

/-- Every release is asked for, whatever comes of those before it. -/
theorem releaseAll_run (first : Option DriverError) (primitives : List Primitive) :
    ∃ remote added, added.map Entry.request = primitives.map (fun p => .execute [p]) ∧
      (releaseAll first primitives).run h =
        (.ok (first.or (refused? added)), ⟨h.driver, ⟨remote, h.remote.entries ++ added⟩⟩) := by
  induction primitives generalizing first h with
  | nil =>
    refine ⟨h.remote.remote, [], rfl, ?_⟩
    simp [releaseAll, refused?]
  | cons p rest ih =>
    obtain ⟨remote, entry, hentry, hstep⟩ := releaseAll_cons_run (h := h) p
    obtain ⟨t, added, hadded, hrest⟩ := ih (first.or (refused? [entry]))
    refine ⟨t, [entry] ++ added, by simp [hentry, hadded], ?_⟩
    rw [hstep, hrest, refused?_append, Option.or_assoc, List.append_assoc]

theorem close_run (hopen : h.driver.closed = false) :
    ∃ remote added, added.map Entry.request =
        (releases h.driver.config).map (fun p => .execute [p]) ++ [.down] ∧
      close.run h = ((refused? added).elim (.ok ()) .error,
        ⟨{ h.driver with closed := true, loaded := none },
          ⟨remote, h.remote.entries ++ added⟩⟩) := by
  let s : Driving (Ledger σ) :=
    { h with driver := { h.driver with closed := true, loaded := none } }
  obtain ⟨remote, added, hadded, hreleases⟩ :=
    releaseAll_run (h := s) none (releases h.driver.config)
  let r := (down : Action σ RemoteError _).run remote
  refine ⟨r.2, added ++ [⟨.down, Ledger.refusal? r.1⟩], by simp [hadded], ?_⟩
  have htorn : (onRemote (down.mapError .remote) : Act (Ledger σ) Unit).run
      ⟨s.driver, ⟨remote, h.remote.entries ++ added⟩⟩ = (r.1.mapError .remote, ⟨s.driver,
        ⟨r.2, h.remote.entries ++ added ++ [⟨.down, Ledger.refusal? r.1⟩]⟩⟩) :=
    onRemote_note_run .down _ _
  rw [close, Action.bind_run]
  simp only [getDriver, Action.view_run, hopen, Bool.false_eq_true, if_false, Action.bind_run,
    Action.update_run]
  rw [hreleases, Option.none_or, refused?_append]
  simp only [Action.attempt_run]
  rw [htorn, List.append_assoc]
  cases refused? added with
  | some e => rfl
  | none => cases r.1 <;> rfl

theorem afterAll_closed {σ : Type} [Service σ] {h : Driving σ} (hc : h.Closed)
    (history : List Operation) : h.afterAll history = h := by
  induction history with
  | nil => rfl
  | cons op history ih =>
    rw [afterAll, List.foldl_cons, after_closed hc]
    exact ih

theorem close_run_closed {σ : Type} [Service σ] {h : Driving σ} (hc : h.driver.closed = true) :
    close.run h = (.ok (), h) := by
  rw [close, Action.bind_run]
  simp only [getDriver, Action.view_run, hc]
  rfl

/-- Closing is complete and final. An open driver asks for the release of both buffers and of the
channel, each in a batch of its own, and then for the instance to go down, once each and in this
order, whatever is refused; it reports the first refusal. Whatever the driver is asked for from then
on, it asks nothing of the instance and leaves its probe alone, and to close it again succeeds. -/
theorem close_final (h : Driving (Ledger σ)) :
    (h.driver.closed = false →
      ∃ remote added,
        added.map Entry.request =
          [.execute [.bufferDealloc h.driver.config.dram0Buffer],
            .execute [.bufferDealloc h.driver.config.dram1Buffer],
            .execute [.dmaDealloc h.driver.config.dmaChannel], .down] ∧
        close.run h = ((refused? added).elim (.ok ()) .error,
          ⟨{ h.driver with closed := true, loaded := none },
            ⟨remote, h.remote.entries ++ added⟩⟩)) ∧
    ∀ history, (h.after .close).afterAll history = h.after .close ∧
      (close.run ((h.after .close).afterAll history)).1 = .ok () := by
  refine ⟨close_run, fun history => ?_⟩
  have hclosed : (h.after .close).Closed := closed_close h
  rw [afterAll_closed hclosed, close_run_closed hclosed]
  exact ⟨rfl, rfl⟩

def halfReleased (h : Driving (Switch Simulator)) : Driving (Ledger (Switch Simulator)) :=
  ⟨h.driver, ⟨h.remote.replan ⟨[(1, .fail (.device (.other "busy")))], none, some .notUp⟩, []⟩⟩

theorem close_final_halfReleased :
    ∃ h : Driving (Ledger (Switch Simulator)), h.driver.closed = false ∧
      (close.run h).1 = .error (.remote (.device (.other "busy"))) ∧
      (h.after .close).remote.entries =
        [⟨.execute [.bufferDealloc "d0"], none⟩,
          ⟨.execute [.bufferDealloc "d1"], some (.device (.other "busy"))⟩,
          ⟨.execute [.dmaDealloc "inst"], none⟩, ⟨.down, some .notUp⟩] ∧
      (∃ remote added, added.map Entry.request =
          [.execute [.bufferDealloc h.driver.config.dram0Buffer],
            .execute [.bufferDealloc h.driver.config.dram1Buffer],
            .execute [.dmaDealloc h.driver.config.dmaChannel], .down] ∧
        close.run h = ((refused? added).elim (.ok ()) .error,
          ⟨{ h.driver with closed := true, loaded := none },
            ⟨remote, h.remote.entries ++ added⟩⟩)) ∧
      (h.after .close).afterAll [.flush, .close] = h.after .close := by
  obtain ⟨start, hs⟩ := exists_smallStart
  have hfacts : ∀ h ∈ smallStart, (halfReleased h).driver.closed = false ∧
      (close.run (halfReleased h)).1 = .error (.remote (.device (.other "busy"))) ∧
      ((halfReleased h).after .close).remote.entries =
        [⟨.execute [.bufferDealloc "d0"], none⟩,
          ⟨.execute [.bufferDealloc "d1"], some (.device (.other "busy"))⟩,
          ⟨.execute [.dmaDealloc "inst"], none⟩, ⟨.down, some .notUp⟩] := by decide +kernel
  obtain ⟨hopen, hanswer, hentries⟩ := hfacts start hs
  exact ⟨halfReleased start, hopen, hanswer, hentries, (close_final (halfReleased start)).1 hopen,
    ((close_final (halfReleased start)).2 _).1⟩

end Driving

end TensorUnit.Host
