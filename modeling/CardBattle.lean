import CardBattle.AttackModifier
import CardBattle.Action.Legal
import CardBattle.Action.Permit
import CardBattle.Action.Resolution
import CardBattle.Cascade.Refresh
import CardBattle.Catalog
import CardBattle.Json.Reader
import CardBattle.Json.Writer
import CardBattle.Session
import CardBattle.Targets
import CardBattle.Proofs.Board.Cells
import CardBattle.Proofs.Battle.Coherence
import CardBattle.Proofs.Battle.Integrity
import CardBattle.Proofs.BoardUnit.Alteration
import CardBattle.Proofs.Cascade.Beat
import CardBattle.Proofs.Cascade.Move
import CardBattle.Proofs.Cascade.Exchange
import CardBattle.Proofs.Cascade.Departure
import CardBattle.Proofs.Cascade.Soundness
import CardBattle.Proofs.Action.Permit
import CardBattle.Proofs.Action.Deeds
import CardBattle.Proofs.Action.Soundness
import CardBattle.Proofs.Session.Soundness
import CardBattle.Proofs.Session.Timeline
import CardBattle.Proofs.Action.Conservation
import CardBattle.Proofs.BoardUnit.Overflow
import CardBattle.Proofs.Cascade.Overflow
import CardBattle.Proofs.Action.Overflow
import CardBattle.Proofs.BoardUnit.Steadiness
import CardBattle.Proofs.Cascade.Tally
import CardBattle.Proofs.Cascade.Mourning
import CardBattle.Proofs.Action.Mourning
import CardBattle.Proofs.Action.Frame
import CardBattle.Proofs.Action.Run
import CardBattle.Proofs.Cascade.Agreement
import CardBattle.Proofs.Action.Legal
import CardBattle.Proofs.Action.Depth
import CardBattle.Proofs.Action.Accounts
import CardBattle.Proofs.Action.Auras
import CardBattle.Proofs.Action.Pacing
import CardBattle.Proofs.Cascade.Commutation
import CardBattle.Proofs.BoardUnit.Reordering
import CardBattle.Proofs.Battle.Restoration
import CardBattle.Proofs.Card.Restoration
import CardBattle.Proofs.Action.History
import CardBattle.Proofs.Action.Tidiness
import CardBattle.Proofs.Action.Headroom
import CardBattle.Proofs.Action.Chance
import CardBattle.Proofs.Action.Credit
import CardBattle.Proofs.Cascade.Lack
import CardBattle.Proofs.BoardUnit.Expiry
import CardBattle.Proofs.Action.Handover
import CardBattle.Proofs.Cascade.Trade
import CardBattle.Proofs.Cascade.Skipping
import CardBattle.Proofs.Cascade.LastWords
import CardBattle.Proofs.Cascade.Rollcall
import CardBattle.Proofs.AttackModifier.Comparison
import CardBattle.Proofs.BoardUnit.Allowance
import CardBattle.Proofs.Action.Enumeration
import CardBattle.Proofs.Action.Modifiers
import CardBattle.Proofs.Action.Prevention
import CardBattle.Proofs.Battle.Verdict
import CardBattle.Proofs.Card.Spelling
import CardBattle.Proofs.Action.Restoration
