import LicenseHeader.Main
import LicenseHeader.Git.Setup
import LicenseHeader.Proofs.Header.HiddenHeader
import LicenseHeader.Proofs.File.Change
import LicenseHeader.Proofs.Text.Utf8
import LicenseHeader.Proofs.Batch.Replacement
import LicenseHeader.Proofs.Batch.Moments
import LicenseHeader.Proofs.Batch.Process
import LicenseHeader.Proofs.Batch.Selection
import LicenseHeader.Proofs.Batch.Truthful
import LicenseHeader.Proofs.File.LastName
import LicenseHeader.Proofs.File.Operations
import LicenseHeader.Proofs.Batch.Staging
import LicenseHeader.Proofs.Batch.Frame
import LicenseHeader.Proofs.File.Sibling
import LicenseHeader.Proofs.Batch.Plan
import LicenseHeader.Proofs.Batch.Cell
import LicenseHeader.Proofs.Batch.Independent
import LicenseHeader.Proofs.Batch.Again
import LicenseHeader.Proofs.Batch.Checked
import LicenseHeader.Proofs.Header.Convergence
import LicenseHeader.Proofs.Batch.Atomic
import LicenseHeader.Proofs.Path.Below
import LicenseHeader.Proofs.Path.Order
import LicenseHeader.Proofs.Exclude.Spelling
import LicenseHeader.Proofs.File.Spelling
import LicenseHeader.Proofs.Batch.Stale
import LicenseHeader.Proofs.Batch.Reports
import LicenseHeader.Proofs.Batch.Mentions
import LicenseHeader.Proofs.Command.Arguments
import LicenseHeader.Proofs.Command.Gate
import LicenseHeader.Proofs.Command.Failures
import LicenseHeader.Proofs.Command.Stops
import LicenseHeader.Proofs.Batch.Patched
import LicenseHeader.Proofs.Patch.Walk
import LicenseHeader.Proofs.Patch.Slide
import LicenseHeader.Proofs.Patch.Group
import LicenseHeader.Proofs.Patch.Apply
import LicenseHeader.Proofs.Patch.Reading
import LicenseHeader.Proofs.Patch.Rendered
import LicenseHeader.Proofs.Patch.Saved
import LicenseHeader.Proofs.Header.Stripping
import LicenseHeader.Proofs.Batch.Ordered
import LicenseHeader.Proofs.Path.Shown
import LicenseHeader.Proofs.Command.Quiet
import LicenseHeader.Proofs.Batch.Excluding
import LicenseHeader.Proofs.Batch.Dotted
import LicenseHeader.Proofs.Path.Text
import LicenseHeader.Proofs.Exclude.Wildcards
import LicenseHeader.Proofs.Exclude.Directory
import LicenseHeader.Proofs.Batch.Twice
import LicenseHeader.Proofs.Header.BlankLine
import LicenseHeader.Proofs.Batch.Links
import LicenseHeader.Proofs.Command.Listing
import LicenseHeader.Proofs.Report.Json
import LicenseHeader.Proofs.Console.Patch
import LicenseHeader.Proofs.Batch.Called
import LicenseHeader.Proofs.Style.Lookup
import LicenseHeader.Proofs.Git.Listing
import LicenseHeader.Proofs.Text.OnlyDivision
import LicenseHeader.Proofs.File.Device
