import Switchboard.Proofs.Traffic
import Switchboard.Shutdown

/-!
What an engine does is traffic.

The steps of the traffic are finer than what an engine offers.  A call that waits, waiting for a
callback, and shutting the transports down, each with everything that goes on meanwhile, are runs of
such steps; and after a shutdown the transport is closed.
-/

namespace Switchboard.Traffic

variable (engine : Engine) {traffic : Traffic} {world : World} {ticket : Nat}

/-- Waiting does not touch the calls. -/
theorem exists_runs_lapses (hlapses : World.Lapses traffic.world world) :
    ∃ next, Runs engine traffic next ∧ next.world = world ∧ next.calls = traffic.calls := by
  induction hlapses with
  | refl => exact ⟨traffic, .refl, rfl, rfl⟩
  | tail _ hlapse ih =>
      obtain ⟨between, hruns, rfl, hcalls⟩ := ih
      cases hlapse with
      | pass time =>
          have hpass := @Step.elsewhere engine between (between.world.advanceTo time) rfl rfl rfl
          exact ⟨_, hruns.tail hpass, rfl, hcalls⟩
      | step before task after htasks =>
          refine ⟨_, hruns.tail (.steps before task after htasks), rfl, ?_⟩
          rw [← hcalls]
          funext other
          simp only [proceed]
          split
          · next howner => rw [howner]
          · rfl

theorem exists_runs_await (ticket : Nat) :
    ∃ next, Runs engine traffic next ∧ next.world = traffic.world.await ticket ∧
      next.calls = traffic.calls :=
  exists_runs_lapses engine (World.lapses_await traffic.world ticket)

/-- A call that waits is a run, with the others going on meanwhile. -/
theorem exists_runs_invoke (hunused : traffic.calls ticket = .unused) (arguments : List Value)
    (context : Context) :
    ∃ next, Runs engine traffic next ∧
      next.world = (engine.invoke Jms.action arguments context traffic.world).world ∧
      next.calls ticket =
        .returned (engine.invoke Jms.action arguments context traffic.world).result := by
  rw [Engine.invoke_eq]
  rcases henter : engine.enter Jms.action arguments context traffic.world with
    outcome | ⟨waiting, entered⟩
  · exact ⟨_, .single (.returns hunused henter), rfl, if_pos rfl⟩
  · have hwaits := @Step.waits engine traffic ticket arguments context waiting entered hunused
      henter
    obtain ⟨later, hruns, hworld, hcalls⟩ := exists_runs_lapses engine
      (World.lapses_waitUntil (traffic.proceed ticket (.waiting waiting) entered).world
        waiting.flight.due)
    have hwaiting : later.calls ticket = .waiting waiting := by
      rw [hcalls]
      exact if_pos rfl
    have hdue : waiting.flight.due ≤ later.world.now := by
      rw [hworld]
      exact World.le_now_waitUntil _ _
    have hlands := (Relation.ReflTransGen.head hwaits hruns).tail (.lands hwaiting hdue)
    refine ⟨_, hlands, ?_, ?_⟩
    · rw [hworld]
      rfl
    · rw [hworld]
      exact if_pos rfl

/-- Asking a transport to shut down is a run. -/
theorem exists_runs_close (hlooped : traffic.world.IsLooped) (family : String) :
    ∃ next, Runs engine traffic next ∧ next.calls = traffic.calls ∧
      next.world = (traffic.world.note (.closing family)).updateTransport family
        Transport.afterClosing ∧
      next.world.IsLooped ∧
      (traffic.world.loopback.closed = true ∨ family = Jms.family →
        next.world.loopback.closed = true) := by
  by_cases hfamily : family = Jms.family
  · subst hfamily
    have hnoted := @Step.elsewhere engine traffic (traffic.world.note (.closing Jms.family))
      rfl rfl rfl
    have hfind : Entries.find? Jms.family (traffic.world.note (.closing Jms.family)).transports =
        some (.loopback traffic.world.loopback) := hlooped
    obtain ⟨hnext, hloopback⟩ := World.IsLooped.setTransport
      (traffic.world.note (.closing Jms.family)) traffic.world.loopback.close
    refine ⟨_, .tail (.single hnoted) (.turns (.close _)), rfl, ?_, hnext, ?_⟩
    · simp only [World.updateTransport]
      rw [hfind]
      rfl
    · intro _
      exact congrArg Loopback.closed hloopback
  · have hquiet := World.Quiet.updateTransport (traffic.world.note (.closing family)) family
      Transport.afterClosing
    have hfind := World.find?_updateTransport hfamily (traffic.world.note (.closing family))
      Transport.afterClosing
    obtain ⟨hnext, hloopback⟩ := World.looped_of_find (hfind.trans hlooped)
    refine ⟨_, .single (.elsewhere hquiet.tasks hquiet.deliveries hfind), rfl, rfl, hnext, ?_⟩
    rintro (hclosed | h)
    · exact (congrArg Loopback.closed hloopback).trans hclosed
    · exact absurd h hfamily

/-- Shutting transports down is a run, and closes the one that serves `net.jms:send` if it is among
them. -/
theorem exists_runs_closeAll (hlooped : traffic.world.IsLooped) (limit : Millis)
    (transports : Entries Transport) :
    ∃ next, Runs engine traffic next ∧ next.calls = traffic.calls ∧
      next.world = (traffic.world.closeAll limit transports).2 ∧
      (traffic.world.loopback.closed = true ∨ Jms.family ∈ Entries.names transports →
        next.world.loopback.closed = true) := by
  induction transports generalizing traffic with
  | nil =>
      refine ⟨traffic, .refl, rfl, rfl, ?_⟩
      rintro (hclosed | hmem)
      · exact hclosed
      · cases hmem
  | cons entry rest ih =>
      obtain ⟨family, transport⟩ := entry
      obtain ⟨closed, hclose, hcloseCalls, hworld, hclosedLooped, hclosed⟩ :=
        exists_runs_close engine hlooped family
      have hlapses := World.lapses_waitUntil closed.world
        (traffic.world.now + transport.closingTime limit)
      obtain ⟨waited, hwait, hwaited, hwaitCalls⟩ := exists_runs_lapses engine hlapses
      obtain ⟨hwaitedLooped, hserved⟩ := hlapses.moves.served.looped hclosedLooped
      rw [← hwaited] at hwaitedLooped hserved
      obtain ⟨last, hrest, hrestCalls, hlast, hlastClosed⟩ := ih hwaitedLooped
      refine ⟨last, (hclose.trans hwait).trans hrest,
        (hrestCalls.trans hwaitCalls).trans hcloseCalls, ?_, ?_⟩
      · rw [hlast, hwaited, hworld]
        rfl
      · rintro (h | hmem)
        · exact hlastClosed (.inl (hserved.closed.trans (hclosed (.inl h))))
        · rcases List.mem_cons.1 hmem with h | hmem
          · exact hlastClosed (.inl (hserved.closed.trans (hclosed (.inr h.symm))))
          · exact hlastClosed (.inr hmem)

theorem exists_runs_shutdown (hlooped : traffic.world.IsLooped) (limit : Millis) :
    ∃ next, Runs engine traffic next ∧ next.calls = traffic.calls ∧
      next.world = (traffic.world.shutdown limit).2 ∧ next.world.loopback.closed = true := by
  obtain ⟨next, hruns, hcalls, hworld, hclosed⟩ := exists_runs_closeAll engine hlooped limit
    (Entries.sorted traffic.world.transports)
  refine ⟨next, hruns, hcalls, ?_, ?_⟩
  · rw [hworld]
    simp only [World.shutdown]
    split
    · next heq => rw [heq]
    · next heq => rw [heq]
  · apply hclosed
    right
    have hnames := (Entries.sorted_perm traffic.world.transports).map Prod.fst
    apply hnames.mem_iff.2
    by_cases hmem : Jms.family ∈ Entries.names traffic.world.transports
    · exact hmem
    · have hnone := hlooped.symm.trans (Entries.find?_eq_none_iff.2 hmem)
      cases hnone

end Switchboard.Traffic
