import DocQuery.Database
import DocQuery.Document.Reader
import DocQuery.Store
import DocQuery.Wire.Records
import DocQuery.Proofs.Registration
import DocQuery.Proofs.Lexeme
import DocQuery.Proofs.Spelling
import DocQuery.Proofs.ConditionReader
import DocQuery.Proofs.Vocabulary
import DocQuery.Proofs.JsonText
import DocQuery.Proofs.Query
import DocQuery.Proofs.ConditionMeaning
import DocQuery.Proofs.UpdateReader
import DocQuery.Proofs.UpdateMeaning
import DocQuery.Proofs.TokenScan
import DocQuery.Proofs.TokenUse
import DocQuery.Proofs.RequestTokens
import DocQuery.Proofs.FilterMeaning
import DocQuery.Proofs.Session
import DocQuery.Proofs.PathFragment
import DocQuery.Proofs.Layering
import DocQuery.Proofs.Lockstep
import DocQuery.Proofs.Replacement
import DocQuery.Proofs.TokenSpelling
import DocQuery.Proofs.NameTokens
import DocQuery.Proofs.Base64
import DocQuery.Proofs.Nesting
import DocQuery.Proofs.FieldOrder
import DocQuery.Proofs.ValueWire
import DocQuery.Proofs.Rounding
import DocQuery.Proofs.RoundingRange
import DocQuery.Proofs.Shortest
import DocQuery.Proofs.LiteralText
import DocQuery.Proofs.NumberText
import DocQuery.Proofs.DecimalValue
import DocQuery.Proofs.ReadNumber
import DocQuery.Proofs.NumberSet
import DocQuery.Proofs.InsertedFields
import DocQuery.Proofs.DocumentTrip
import DocQuery.Proofs.RecordWire
import DocQuery.Proofs.CanonicalForm
import DocQuery.Proofs.Acceptance
import DocQuery.Proofs.QueryLanguage
import DocQuery.Proofs.UpdateLanguage
import DocQuery.Proofs.ByteOrder
import DocQuery.Proofs.EntryOrder
import DocQuery.Proofs.FirstFit
import DocQuery.Proofs.ProjectionText
import DocQuery.Proofs.CountRequest
import DocQuery.Proofs.AppendGuard
import DocQuery.Proofs.ElementTokens
