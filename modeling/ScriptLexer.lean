import ScriptLexer.Cursor.Move
import ScriptLexer.Session
import ScriptLexer.Main
import ScriptLexer.Proofs.Tiling
import ScriptLexer.Proofs.Relexing
import ScriptLexer.Proofs.LineEndings
import ScriptLexer.Proofs.Concatenation
import ScriptLexer.Proofs.Lookahead
import ScriptLexer.Proofs.QuoteSymmetry
import ScriptLexer.Proofs.Requests
import ScriptLexer.Proofs.SharedStream
import ScriptLexer.Proofs.Bookkeeping
import ScriptLexer.Proofs.JsonReading
import ScriptLexer.Proofs.Records
import ScriptLexer.Proofs.Sources
import ScriptLexer.Proofs.Agreement
import ScriptLexer.Proofs.Batch
import ScriptLexer.Proofs.ExitStatus
import ScriptLexer.Proofs.Recovery
import ScriptLexer.Proofs.NumeralGrammar
import ScriptLexer.Proofs.FaultLines
import ScriptLexer.Proofs.MaximalMunch
import ScriptLexer.Proofs.CommentExtent
import ScriptLexer.Proofs.ByteCursor
import ScriptLexer.Proofs.CursorPlace
import ScriptLexer.Proofs.ByteScan
import ScriptLexer.Proofs.ByteWords
import ScriptLexer.Proofs.ByteNumbers
import ScriptLexer.Proofs.ByteLiteral
import ScriptLexer.Proofs.ByteLexer
import ScriptLexer.Proofs.SoundSlices
import ScriptLexer.Proofs.Progress
import ScriptLexer.Proofs.Selection
import ScriptLexer.Proofs.TextLines
import ScriptLexer.Proofs.Omission
import ScriptLexer.Proofs.Room
import ScriptLexer.Proofs.CodeSpelling
import ScriptLexer.Proofs.Renderings
import ScriptLexer.Proofs.HexadecimalWords
