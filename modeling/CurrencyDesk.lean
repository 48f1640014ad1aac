import CurrencyDesk.Main
import CurrencyDesk.Proofs.Amount.CopiedText
import CurrencyDesk.Proofs.Amount.Order
import CurrencyDesk.Proofs.Config.Merge
import CurrencyDesk.Proofs.Currency.Codes
import CurrencyDesk.Proofs.Currency.Region
import CurrencyDesk.Proofs.Desk.Apart
import CurrencyDesk.Proofs.Desk.Freshness
import CurrencyDesk.Proofs.Desk.Spacing
import CurrencyDesk.Proofs.Desk.Together
import CurrencyDesk.Proofs.Desk.Uncached
import CurrencyDesk.Proofs.Query.Forms
import CurrencyDesk.Proofs.Remote.Address
import CurrencyDesk.Proofs.Remote.Answers
import CurrencyDesk.Proofs.Terminal.Interactive
import CurrencyDesk.Proofs.Terminal.Runs
import CurrencyDesk.Proofs.Terminal.Single
import CurrencyDesk.Proofs.Terminal.Texts
