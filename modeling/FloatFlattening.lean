import FloatFlattening.Text.Script
import FloatFlattening.Text.Quote
import FloatFlattening.Markup.Environment
import FloatFlattening.Markup.Mark
import FloatFlattening.Markup.Comment
import FloatFlattening.Markup.GraphicsPath
import FloatFlattening.Markup.PanelPackage
import FloatFlattening.Outline.Basic
import FloatFlattening.Numbering.OfOutline
import FloatFlattening.Path
import FloatFlattening.Settings.Description
import FloatFlattening.Disk.File
import FloatFlattening.Manuscript
import FloatFlattening.Settings.Bibliography
import FloatFlattening.Run
import FloatFlattening.Production
import FloatFlattening.Rehearsal
import FloatFlattening.Shell.Toolchain
import FloatFlattening.FloatMarkup
import FloatFlattening.Standalone
import FloatFlattening.Flattening.Basic
import FloatFlattening.Main
import FloatFlattening.Proofs.Markup.Escape
import FloatFlattening.Proofs.Markup.Group
import FloatFlattening.Proofs.Markup.Arguments
import FloatFlattening.Proofs.Markup.Command
import FloatFlattening.Proofs.Markup.Found
import FloatFlattening.Proofs.Markup.Seam
import FloatFlattening.Proofs.Markup.Balanced
import FloatFlattening.Proofs.Markup.Usage
import FloatFlattening.Proofs.Markup.Environment
import FloatFlattening.Proofs.Markup.Outermost
import FloatFlattening.Proofs.Markup.Mark
import FloatFlattening.Proofs.Outline.Basic
import FloatFlattening.Proofs.Numbering.Entry
import FloatFlattening.Proofs.Numbering.Step
import FloatFlattening.Proofs.Numbering.Visit
import FloatFlattening.Proofs.Numbering.Run
import FloatFlattening.Proofs.Numbering.Visited
import FloatFlattening.Proofs.Numbering.Total
import FloatFlattening.Proofs.Flattening.Stretch
import FloatFlattening.Proofs.Flattening.Dangling
import FloatFlattening.Proofs.Block
import FloatFlattening.Proofs.Flattening.Visit
import FloatFlattening.Proofs.Numbering.Owner
import FloatFlattening.Proofs.Flattening.Faithful
import FloatFlattening.Proofs.Flattening.Root
import FloatFlattening.Proofs.Markup.Plain
import FloatFlattening.Proofs.Markup.Ids
import FloatFlattening.Proofs.Flattening.Exchange
import FloatFlattening.Proofs.Pattern
import FloatFlattening.Proofs.FloatMarkup
import FloatFlattening.Proofs.Flattening.Unique
import FloatFlattening.Proofs.Numbering.Consistent
import FloatFlattening.Proofs.Numbering.Request
import FloatFlattening.Proofs.Numbering.Alike
import FloatFlattening.Proofs.Numbering.Faithful
import FloatFlattening.Proofs.Disk.Walk
import FloatFlattening.Proofs.Disk.Change
import FloatFlattening.Proofs.Disk.Copy
import FloatFlattening.Proofs.Disk.Below
import FloatFlattening.Proofs.Disk.Mirror
import FloatFlattening.Proofs.Manuscript
import FloatFlattening.Proofs.Run
import FloatFlattening.Proofs.WorkingCopy
import FloatFlattening.Proofs.Production
import FloatFlattening.Proofs.Markup.Piece
import FloatFlattening.Proofs.Flattening.Pieces
import FloatFlattening.Proofs.Flattening.Float
import FloatFlattening.Proofs.Markup.Part
import FloatFlattening.Proofs.Outline.Matches
import FloatFlattening.Proofs.Outline.Split
import FloatFlattening.Proofs.Numbering.Thin
import FloatFlattening.Proofs.Numbering.Replaced
import FloatFlattening.Proofs.Flattening.Laid
import FloatFlattening.Proofs.Flattening.Text
import FloatFlattening.Proofs.Flattening.Renumbered
import FloatFlattening.Proofs.Flattening.Overlap
import FloatFlattening.Proofs.Flattening.Assembly
import FloatFlattening.Proofs.Flattening.Report
import FloatFlattening.Proofs.Bytes.Search
import FloatFlattening.Proofs.Flattening.Redrawn
import FloatFlattening.Proofs.Conversation
import FloatFlattening.Proofs.Protocol
import FloatFlattening.Proofs.AllOrNothing
import FloatFlattening.Proofs.Block.Listed
import FloatFlattening.Proofs.FloatMarkup.AtOnce
import FloatFlattening.Proofs.Markup.ControlWord
import FloatFlattening.Proofs.Manuscript.Expansion
import FloatFlattening.Proofs.Block.FileName
import FloatFlattening.Proofs.Block.Body
import FloatFlattening.Proofs.Markup.GraphicsPath
import FloatFlattening.Proofs.Markup.Sequel
import FloatFlattening.Proofs.Markup.Removal
import FloatFlattening.Proofs.Flattening.Directive
import FloatFlattening.Proofs.Markup.Tally
import FloatFlattening.Proofs.Markup.Around
import FloatFlattening.Proofs.Markup.Range
import FloatFlattening.Proofs.Disk.Tour
import FloatFlattening.Proofs.WorkingCopy.Mirror
