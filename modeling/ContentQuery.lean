import ContentQuery.ContentType.Equality
import ContentQuery.Manifest.Encode
import ContentQuery.Main
import ContentQuery.Proofs.Reachability
import ContentQuery.Proofs.MissingTypes
import ContentQuery.Proofs.Denotation
import ContentQuery.Proofs.Uniqueness
import ContentQuery.Proofs.Contents
import ContentQuery.Proofs.JsonText
import ContentQuery.Proofs.Order
import ContentQuery.Proofs.RoundTrip
import ContentQuery.Proofs.RegistrationOrder
import ContentQuery.Proofs.Rerooting
import ContentQuery.Proofs.Threshold
import ContentQuery.Proofs.FormElements
import ContentQuery.Proofs.Capture
import ContentQuery.Proofs.Relevance
import ContentQuery.Proofs.WellFormed
import ContentQuery.Proofs.Commands
import ContentQuery.Proofs.FanOut
import ContentQuery.Proofs.ArrayLayers
import ContentQuery.Proofs.Replay
import ContentQuery.Proofs.ManifestRewriting
import ContentQuery.Proofs.Aliases
import ContentQuery.Proofs.Registration
import ContentQuery.Proofs.ThresholdOverride
import ContentQuery.Proofs.DeclarationEquality
import ContentQuery.Proofs.Messages
import ContentQuery.Proofs.VisitedNames
