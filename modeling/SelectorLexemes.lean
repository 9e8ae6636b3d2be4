import SelectorLexemes.Category
import SelectorLexemes.CommandLine
import SelectorLexemes.CommandLine.Reading
import SelectorLexemes.Console
import SelectorLexemes.Cursor
import SelectorLexemes.Failure
import SelectorLexemes.Inventory
import SelectorLexemes.Inventory.Document
import SelectorLexemes.Json
import SelectorLexemes.Json.Quoted
import SelectorLexemes.Lexeme
import SelectorLexemes.Main
import SelectorLexemes.Presentation
import SelectorLexemes.Presentation.Listing
import SelectorLexemes.Program
import SelectorLexemes.Proofs.Parentheses
import SelectorLexemes.Scan
import SelectorLexemes.Segment
import SelectorLexemes.Segment.Reading
import SelectorLexemes.SelectorList
import SelectorLexemes.Session
import SelectorLexemes.Settings
import SelectorLexemes.Source
import SelectorLexemes.Surroundings
import SelectorLexemes.Text.AsciiCase
import SelectorLexemes.Text.Balanced
import SelectorLexemes.Text.Blank
import SelectorLexemes.Text.Emphasis
import SelectorLexemes.Text.Lines
import SelectorLexemes.Text.Printable
import SelectorLexemes.Text.Utf8
import SelectorLexemes.Token
import SelectorLexemes.Warning
import SelectorLexemes.Proofs.Grammar
import SelectorLexemes.Proofs.Segmentation
import SelectorLexemes.Proofs.Printing
import SelectorLexemes.Proofs.Boundaries
import SelectorLexemes.Proofs.Arguments
import SelectorLexemes.Proofs.Pieces
import SelectorLexemes.Proofs.Documents
import SelectorLexemes.Proofs.Inventories
import SelectorLexemes.Proofs.Displays
import SelectorLexemes.Proofs.Runs
import SelectorLexemes.Proofs.Lines
import SelectorLexemes.Proofs.Warnings
import SelectorLexemes.Proofs.Lexemes
import SelectorLexemes.Proofs.Listings
import SelectorLexemes.Proofs.WellFormed
import SelectorLexemes.Proofs.Continuations
import SelectorLexemes.Proofs.Interactions
import SelectorLexemes.Proofs.Labels
import SelectorLexemes.Proofs.Padding
import SelectorLexemes.Proofs.Brackets
import SelectorLexemes.Proofs.DocumentLines
import SelectorLexemes.Proofs.StandardInput
import SelectorLexemes.Proofs.CommandItems
import SelectorLexemes.Proofs.CommandOptions
import SelectorLexemes.Proofs.CommandLines
import SelectorLexemes.Proofs.Origins
import SelectorLexemes.Proofs.Grouping
import SelectorLexemes.Proofs.Merging
import SelectorLexemes.Proofs.Emptiness
import SelectorLexemes.Proofs.Renaming
import SelectorLexemes.Proofs.SelectorLists
import SelectorLexemes.Proofs.RawLines
import SelectorLexemes.Proofs.Layouts
import SelectorLexemes.Proofs.Restrictions
import SelectorLexemes.Proofs.Colors
import SelectorLexemes.Proofs.Steps
import SelectorLexemes.Proofs.Progress
