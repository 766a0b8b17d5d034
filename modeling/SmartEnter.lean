import SmartEnter.Client.OnEnter
import SmartEnter.Enter.Typing
import SmartEnter.Main
import SmartEnter.Proofs.Client.BeforeEnter
import SmartEnter.Proofs.Enter.BetweenTokens
import SmartEnter.Proofs.Enter.SplitComment
import SmartEnter.Proofs.Document.SourceLines
import SmartEnter.Proofs.Enter.Table
import SmartEnter.Proofs.Token.LineFeeds
import SmartEnter.Proofs.Text.Returns
import SmartEnter.Proofs.Token.Returns
import SmartEnter.Proofs.Enter.Alike
import SmartEnter.Proofs.Document.Returns
import SmartEnter.Proofs.Enter.LineEnding
import SmartEnter.Proofs.Token.Locality
import SmartEnter.Proofs.Enter.TwoLines
import SmartEnter.Proofs.Token.NewBreak
import SmartEnter.Proofs.Enter.NewLine
import SmartEnter.Proofs.Enter.Holding
import SmartEnter.Proofs.Token.Tiling
import SmartEnter.Proofs.Indent.Style
import SmartEnter.Proofs.Enter.KeepStyle
import SmartEnter.Proofs.Style.Accepted
import SmartEnter.Proofs.CommandLine.Press
import SmartEnter.Proofs.Token.Boundary
import SmartEnter.Proofs.Client.EditRange
import SmartEnter.Proofs.Token.Spelling
import SmartEnter.Proofs.CommandLine.Reports
import SmartEnter.Proofs.CommandLine.Output
import SmartEnter.Proofs.Document.Partition
import SmartEnter.Proofs.Token.LineBreaks
import SmartEnter.Proofs.Token.Places
import SmartEnter.Proofs.CommandLine.Caret
import SmartEnter.Proofs.Enter.OneLine
import SmartEnter.Proofs.Indent.Deepen
import SmartEnter.Proofs.Style.KeyOrder
import SmartEnter.Proofs.Client.Cursor
import SmartEnter.Proofs.Token.Index
import SmartEnter.Proofs.Language.History
import SmartEnter.Proofs.CommandLine.Position
import SmartEnter.Proofs.Document.Refusal
