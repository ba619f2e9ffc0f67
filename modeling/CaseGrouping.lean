import CaseGrouping.Api.Router
import CaseGrouping.Description
import CaseGrouping.Proofs.Agreement.Leads
import CaseGrouping.Proofs.Agreement.Standing
import CaseGrouping.Proofs.Agreement.Tags
import CaseGrouping.Proofs.Backoff
import CaseGrouping.Proofs.Durable.Convergence
import CaseGrouping.Proofs.Durable.Identity
import CaseGrouping.Proofs.Durable.Messages
import CaseGrouping.Proofs.Membership.Accounting
import CaseGrouping.Proofs.Membership.Eligibility
import CaseGrouping.Proofs.Membership.Leaving
import CaseGrouping.Proofs.Membership.Listed
import CaseGrouping.Proofs.Membership.Resolution
import CaseGrouping.Proofs.Ownership.Frame
import CaseGrouping.Proofs.Ownership.Moves
import CaseGrouping.Proofs.Records.Failure
import CaseGrouping.Proofs.Records.Rejection
import CaseGrouping.Proofs.Records.WellFormed
import CaseGrouping.Proofs.Remote.Addresses
import CaseGrouping.Proofs.Retry.Creation
import CaseGrouping.Proofs.Retry.Leads
import CaseGrouping.Proofs.Retry.Refusal
import CaseGrouping.Proofs.Retry.Repeating
import CaseGrouping.Proofs.Round.Election
import CaseGrouping.Proofs.Round.Order
import CaseGrouping.Proofs.Round.Writing
import CaseGrouping.Proofs.Store.History
import CaseGrouping.Proofs.Store.Supply
import CaseGrouping.Remote.Broker
import CaseGrouping.Remote.Target
import CaseGrouping.Session
