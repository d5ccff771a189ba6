import Runbooks.Main
import Runbooks.Playbook.Reader
import Runbooks.Proofs.Artifacts.Delivery
import Runbooks.Proofs.Config.Documents
import Runbooks.Proofs.Config.Overrides
import Runbooks.Proofs.Draft.Acceptance
import Runbooks.Proofs.Draft.Building
import Runbooks.Proofs.Draft.Json
import Runbooks.Proofs.Draft.Spelling
import Runbooks.Proofs.Environment.History
import Runbooks.Proofs.Failure.Description
import Runbooks.Proofs.Inventory.Addresses
import Runbooks.Proofs.Inventory.Flattening
import Runbooks.Proofs.Inventory.Lines
import Runbooks.Proofs.Inventory.WhiteSpace
import Runbooks.Proofs.Playbook.Debugging
import Runbooks.Proofs.Playbook.Decoding
import Runbooks.Proofs.Playbook.RoundTrip
import Runbooks.Proofs.Session.Answers
import Runbooks.Proofs.Session.Debugging
import Runbooks.Proofs.Session.Pipeline
import Runbooks.Proofs.Session.Preview
import Runbooks.Proofs.Session.Settings
import Runbooks.Proofs.Session.Warning
import Runbooks.Proofs.Config.Search
