import RefineId.Lib.Unfold
import RefineId.Lib.Upsert
import RefineId.Lib.Loop
import RefineId.Lib.Flow
import RefineId.Lib.Run
import RefineId.Lib.Reader
import RefineId.Lib.Intern
import RefineId.Ber
import RefineId.Oid
import RefineId.OidText
import RefineId.X509
import RefineId.PathExtensions
import RefineId.Ocsp
import RefineId.CheckResponse
import RefineId.Revocation
import RefineId.ChainWalk
import RefineId.CardPin
import RefineId.CardPinSafety
import RefineId.Cms
import RefineId.Lib.Utf8
import RefineId.Timestamp
import RefineId.TokenSoundness
import RefineId.Base64
import RefineId.Base64Canonical
import RefineId.Lib.Search
import RefineId.Manifest
import RefineId.AsicVerify
import RefineId.AsicWriter
import RefineId.Document
import RefineId.AsicRoundTrip
import RefineId.Lib.Counter
import RefineId.Lib.Padding
import RefineId.Lib.Prediction
import RefineId.SecureMessaging
import RefineId.SecureChannel
import RefineId.PinCache
import RefineId.T0Exchange
import RefineId.Lib.Uri
import RefineId.Lib.Xml
import RefineId.Xades
import RefineId.XadesReferences
import RefineId.BerRoundTrip
import RefineId.CmsRoundTrip
import RefineId.Pdf
import RefineId.PdfIndex
import RefineId.Pades
import RefineId.PadesByteRange
import RefineId.View
import RefineId.AgentPipe
import RefineId.Atr
import RefineId.Slots
import RefineId.PairingRecord
import RefineId.PairingStore
import RefineId.PairingOffer
import RefineId.PairingCodec
import RefineId.PairingSets
import RefineId.PairingFiles
import RefineId.PairingProtected
import RefineId.EcdsaEncodings
import RefineId.RevocationEntries
import RefineId.CrlLookup
import RefineId.Lib.Links
import RefineId.PdfChain
import RefineId.PngRows
import RefineId.PdfScan
import RefineId.Rsa
import RefineId.Ecdsa
import RefineId.SignatureStacks
import RefineId.PdfGrammar
import RefineId.PdfSplice
import RefineId.PdfEdits
import RefineId.PdfLists
import RefineId.PdfAnnotations
import RefineId.Lib.Base128
import RefineId.Lib.Calendar
import RefineId.SigningTime
import RefineId.SignInput
import RefineId.SelectFile
import RefineId.Mdns
import RefineId.SlotPresence
import RefineId.SlotEvents
import RefineId.Lib.Forest
import RefineId.FieldNames
import RefineId.LiteralString
import RefineId.SignatureDictionary
import RefineId.RsaPss
import RefineId.Lib.Pratt
import RefineId.Lib.ShortWeierstrass
import RefineId.Brainpool
import RefineId.BrainpoolGroup
import RefineId.EcdsaScalars
import RefineId.Lib.Inserted
import RefineId.PathBuilding
import RefineId.BerObjects
import RefineId.PinInfoObjects
import RefineId.FileRead
import RefineId.SecurityObject
import RefineId.Uri
import RefineId.UriJoin
import RefineId.UriText
import RefineId.Lib.Jacobian
import RefineId.BrainpoolOrder
import RefineId.Pace
import RefineId.PaceAgreement
import RefineId.SecureSession
import RefineId.SessionOperations
import RefineId.SessionAccounts
import RefineId.SessionLifetime
