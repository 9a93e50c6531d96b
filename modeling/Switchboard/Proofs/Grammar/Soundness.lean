import Switchboard.Proofs.Grammar.Words

/-!
What the reader accepts.

The reader works with a number of steps that is counted down, and so does the induction: what is
read in so many steps has a derivation, provided that what is read in fewer steps has one.  The rest
of a chain is read with the expression so far in hand, so its statement carries the derivation of
that expression along.
-/

namespace Switchboard

namespace Grammar

open Switchboard.Expr

variable (source : SourceText)

/-- Whatever is read in `fuel` steps has a derivation. -/
structure SoundAt (fuel : Nat) : Prop where
  chain : ∀ {tiers : List Tier} {text rest : List Char} {expr : Expr},
    readChain source fuel tiers text = .ok expr rest → Derives tiers text rest expr.bare
  links : ∀ {tier : Tier} {tighter : List Tier} {start text rest : List Char} {left expr : Expr},
    Derives (tier :: tighter) start text left.bare →
    readLinks source fuel tier tighter left text = .ok expr rest →
    Derives (tier :: tighter) start rest expr.bare
  atom : ∀ {text rest : List Char} {expr : Expr},
    readAtom source fuel text = .ok expr rest → Derives [] text rest expr.bare
  arguments : ∀ {text rest : List Char} {exprs : List Expr},
    readArguments source fuel text = .ok exprs rest → Arguments text rest (bareAll exprs)
  more : ∀ {start text rest : List Char} {first : Tree} {exprs : List Expr},
    Derives levels start text first → readMoreArguments source fuel text = .ok exprs rest →
    Items start rest first (bareAll exprs)

theorem soundAt_zero : SoundAt source 0 where
  chain h := by simp [readChain] at h
  links _ h := by simp [readLinks] at h
  atom h := by simp [readAtom] at h
  arguments h := by simp [readArguments] at h
  more _ h := by simp [readMoreArguments] at h

variable {source} {fuel : Nat}

theorem SoundAt.chain_succ (ih : SoundAt source fuel) {tiers : List Tier} {text rest : List Char}
    {expr : Expr} (h : readChain source (fuel + 1) tiers text = .ok expr rest) :
    Derives tiers text rest expr.bare := by
  cases tiers with
  | nil =>
      rw [readChain] at h
      exact ih.atom h
  | cons tier tighter =>
      rw [readChain] at h
      split at h
      · next left behind hleft => exact ih.links (.operand (ih.chain hleft)) h
      · next hfailed => exact absurd h (hfailed _ _)

theorem SoundAt.links_succ (ih : SoundAt source fuel) {tier : Tier} {tighter : List Tier}
    {start text rest : List Char} {left expr : Expr}
    (hleft : Derives (tier :: tighter) start text left.bare)
    (h : readLinks source (fuel + 1) tier tighter left text = .ok expr rest) :
    Derives (tier :: tighter) start rest expr.bare := by
  rw [readLinks] at h
  split at h
  · next hnone =>
    obtain ⟨rfl, rfl⟩ := Reading.ok.inj h
    exact hleft
  · next op behind hop =>
    obtain ⟨hmem, rfl⟩ := operator?_sound hop
    split at h
    · next right after hright =>
      have hread : readChain source fuel tighter behind = .ok right after := by
        cases hr : readChain source fuel tighter behind <;> simp_all [Reading.committed]
      exact ih.links (.link hmem hleft (ih.chain hread)) h
    · next hfailed => exact absurd h (hfailed _ _)

/-- What is found behind the separators, and ends before the separators, is an atom. -/
theorem Primary.derives {text behind : List Char} {tree : Tree}
    (h : Primary (skipBlank text) behind tree) : Derives [] text (skipBlank behind) tree := by
  obtain ⟨before, hbefore, htext⟩ := exists_skipBlank text
  obtain ⟨after, hafter, hbehind⟩ := exists_skipBlank behind
  rw [htext]
  exact .atom hbefore h hafter hbehind

theorem bare_ofName (text : SourceText) (start name : List Char) :
    (ofName text start name).bare = standalone name := by
  simp only [ofName, standalone, beq_iff_eq]
  split
  · rfl
  · split <;> rfl

theorem SoundAt.primary (ih : SoundAt source fuel) {text start rest : List Char} {expr : Expr}
    (hstart : skipBlank text = start)
    (h : readAtom source (fuel + 1) text = .ok expr rest) :
    ∃ behind, Primary start behind expr.bare ∧ rest = skipBlank behind := by
  simp only [readAtom, hstart] at h
  split at h
  · next inside =>
    split at h
    · next inner behind hinner =>
      obtain ⟨rfl, rfl⟩ := Reading.ok.inj h
      exact ⟨behind, .group (ih.chain hinner), rfl⟩
    · simp at h
    · simp at h
    · simp at h
  · next inside =>
    obtain ⟨word, hword, hinside⟩ := stringBody_sound inside
    split at h
    · next body behind hbody =>
      obtain ⟨rfl, rfl⟩ := Reading.ok.inj h
      rw [hbody] at hword hinside
      rw [hinside]
      exact ⟨behind, .string hword, rfl⟩
    · simp at h
  · split at h
    · next value behind hnumber =>
      obtain ⟨rfl, rfl⟩ := Reading.ok.inj h
      obtain ⟨word, rfl, ⟨x, hx, rfl⟩ | ⟨n, hn, rfl⟩⟩ := number?_sound hnumber
      · exact ⟨behind, .float hx, rfl⟩
      · exact ⟨behind, .integer hn, rfl⟩
    · split at h
      · next name inside hname =>
        simp only [Option.map_eq_some_iff, Prod.exists, Prod.mk.injEq] at hname
        obtain ⟨_, after, hread, rfl, hafter⟩ := hname
        obtain ⟨hname, rfl⟩ := qualifiedName?_sound hread
        obtain ⟨before, hbefore, rfl⟩ := hafter ▸ exists_skipBlank after
        split at h
        · next exprs behind harguments =>
          obtain ⟨blank, hblank, hbehind⟩ := exists_skipBlank behind
          split at h
          · next more hmore =>
            obtain ⟨rfl, rfl⟩ := Reading.ok.inj h
            rw [hmore] at hbehind
            rw [← List.append_assoc]
            exact ⟨more, .call hname hbefore (ih.arguments harguments) hblank hbehind, rfl⟩
          · simp at h
        · simp at h
        · simp at h
      · split at h
        · next name behind hread =>
          obtain ⟨rfl, rfl⟩ := Reading.ok.inj h
          obtain ⟨hname, rfl, hends⟩ := name?_sound hread
          rw [bare_ofName]
          exact ⟨behind, .name hname hends, rfl⟩
        · simp at h

theorem SoundAt.atom_succ (ih : SoundAt source fuel) {text rest : List Char} {expr : Expr}
    (h : readAtom source (fuel + 1) text = .ok expr rest) : Derives [] text rest expr.bare := by
  obtain ⟨behind, hprimary, rfl⟩ := ih.primary rfl h
  exact hprimary.derives

theorem SoundAt.arguments_succ (ih : SoundAt source fuel) {text rest : List Char}
    {exprs : List Expr} (h : readArguments source (fuel + 1) text = .ok exprs rest) :
    Arguments text rest (bareAll exprs) := by
  rw [readArguments] at h
  split at h
  · next first behind hfirst =>
    split at h
    · next others after hothers =>
      obtain ⟨rfl, rfl⟩ := Reading.ok.inj h
      exact .some (ih.more (ih.chain hfirst) hothers)
    · next hfailed => exact absurd h (hfailed _ _)
  · obtain ⟨rfl, rfl⟩ := Reading.ok.inj h
    exact .none
  · simp at h

theorem SoundAt.more_succ (ih : SoundAt source fuel) {start text rest : List Char} {first : Tree}
    {exprs : List Expr} (hfirst : Derives levels start text first)
    (h : readMoreArguments source (fuel + 1) text = .ok exprs rest) :
    Items start rest first (bareAll exprs) := by
  simp only [readMoreArguments] at h
  split at h
  · next behind =>
    split at h
    · next next after hnext =>
      split at h
      · next others left hothers =>
        obtain ⟨rfl, rfl⟩ := Reading.ok.inj h
        exact .more hfirst (ih.more (ih.chain hnext) hothers)
      · next hfailed => exact absurd h (hfailed _ _)
    · obtain ⟨rfl, rfl⟩ := Reading.ok.inj h
      exact .one hfirst
    · simp at h
  · obtain ⟨rfl, rfl⟩ := Reading.ok.inj h
    exact .one hfirst

theorem soundAt (source : SourceText) (fuel : Nat) : SoundAt source fuel := by
  induction fuel with
  | zero => exact soundAt_zero source
  | succ fuel ih =>
      exact ⟨ih.chain_succ, ih.links_succ, ih.atom_succ, ih.arguments_succ, ih.more_succ⟩

/-- An expression that is read has a derivation from all of the text. -/
theorem expression_of_read {source file : String} {expr : Expr}
    (h : Expr.read source file = .ok expr) : Expression source.toList expr.bare := by
  simp only [Expr.read] at h
  split at h
  · next hread =>
    rw [← Except.ok.inj h]
    exact (soundAt _ _).chain hread
  · simp at h
  · simp at h
  · simp at h

end Grammar

end Switchboard
